import Prompt.Proofs.Section.RoundTrip

/-!
# Section lists written and read again

A list that was read is written, and the text is read: it is accepted, and the list is the same up to the
doubles of its fallback values, which are read anew (`readList_listToJson`).
-/

namespace Prompt
open Json

/-! ### Texts are read anew in values only -/

theorem Source.rereads_toJson (s : Source) : s.toJson.rereads = s.toJson := by
  cases s with
  | single name => rfl
  | several names => exact rereads_ofStrings names

theorem Chain.rereads_toJson (t : Chain) : t.toJson.rereads = t.toJson := by
  cases t with
  | one name => rfl
  | many names => exact rereads_ofStrings names

theorem ConditionRecord.rereads_toJson (r : ConditionRecord) : r.toJson.rereads = r.toJson := by
  simp only [toJson, Json.rereads, rereadEntries_append, rereadEntries_optional, rereads_ofStrings,
    rereadEntries]

namespace Fallback

def rereads (f : Fallback) : Fallback := { f with value := f.value.map Json.rereads }

theorem rereads_toJson (f : Fallback) : f.toJson.rereads = f.rereads.toJson := by
  obtain ⟨action, _ | v⟩ := f <;> rfl

end Fallback

namespace Section

def rereads (s : Section) : Section := s.withFallback s.fallback.rereads

def doubles (s : Section) : List Float := (s.fallback.value.map Json.doubles).getD []

theorem rereads_eq_self_iff (s : Section) : s.rereads = s ↔ ∀ x ∈ s.doubles, reread x = x := by
  obtain ⟨id, outputKey, source, condition, ⟨action, value⟩, transform, dependsOn, priority⟩ := s
  cases value with
  | none => simp [rereads, withFallback, Fallback.rereads, doubles]
  | some v => simp [rereads, withFallback, Fallback.rereads, doubles, Json.rereads_eq_self_iff]

theorem rereads_toJson (s : Section) : s.toJson.rereads = s.rereads.toJson := by
  have ids : s.rereads.writtenIds? = s.writtenIds? := rfl
  simp only [toJson_eq, Json.rereads, rereadEntries_append, rereadEntries_optional, rereadEntries,
    Source.rereads_toJson, Chain.rereads_toJson, Condition.toJson, ConditionRecord.rereads_toJson,
    Fallback.rereads_toJson, rereads_ofStrings, ids]
  rfl

theorem rereads_listToJson (sections : List Section) :
    (listToJson sections).rereads = listToJson (sections.map rereads) := by
  rw [listToJson, listToJson, Json.rereads, rereadItems_eq_map, List.map_map, List.map_map]
  exact congrArg Json.arr (List.map_congr_left fun s _ => s.rereads_toJson)

/-! ### Sections that were decoded -/

/-- What is known of a section however it was decoded. -/
structure Decoded (s : Section) : Prop extends Proper s where
  value : s.fallback.value ≠ some .null

theorem Decoded.ofJson_toJson {s : Section} (decoded : s.Decoded) : ofJson s.toJson = .ok s := by
  rw [Section.ofJson_toJson decoded.toProper, returned_eq_self_iff.2 decoded.value]

theorem Decoded.rereads {s : Section} (decoded : s.Decoded) : s.rereads.Decoded := by
  refine ⟨⟨decoded.condition, decoded.least, decoded.less⟩, ?_⟩
  intro null
  obtain ⟨v, present, same⟩ := Option.map_eq_some_iff.1 null
  rw [(stable_eq_null v).1 same] at present
  exact decoded.value present

/-- The value of the fallback, if there is one, can be held and does not nest too deep for a list. -/
def Flat (s : Section) : Prop := ∀ v, s.fallback.value = some v → v.Within (depthLimit - 3)

theorem proper_of_ofJson {j : Json} {c : Condition} (decodes : Condition.ofJson j = .ok c) : c.Proper := by
  obtain ⟨r, -, rfl⟩ := map_eq_ok.1 decodes
  exact Condition.proper_ofRecord r

theorem value_of_ofJson {j : Json} {f : Fallback} (within : j.Within (depthLimit - 2)) (is : IsFallback j)
    (decodes : Fallback.ofJson j = .ok f) :
    f.value ≠ some .null ∧ ∀ v, f.value = some v → v.Within (depthLimit - 3) := by
  obtain ⟨es, rfl, -⟩ := is
  obtain ⟨once, values⟩ := (within_obj (by decide)).1 within
  obtain ⟨-, value⟩ := (fallback_obj once).1 decodes
  rcases orElse_eq_ok.1 value with ⟨-, absent⟩ | ⟨v, found, decodes⟩
  · rw [absent]
    exact ⟨nofun, nofun⟩
  · have listed := (Entries.get?_eq_some_iff once).1 found
    rw [Fallback.optional_value] at decodes
    rw [← Except.ok.inj decodes]
    cases v with
    | null => exact ⟨nofun, nofun⟩
    | _ => exact ⟨nofun, fun v same => Option.some.inj same ▸ values _ listed⟩

theorem decoded_of_ofJson {x : Json} {s : Section} {p : Json → Prop} (within : x.Within (depthLimit - 1))
    (is : IsSectionWith p x) (decodes : ofJson x = .ok s) : s.Decoded ∧ s.Flat := by
  obtain ⟨es, rfl, -, -, -, -, isFallback, -⟩ := is
  obtain ⟨once, values⟩ := (within_obj (by decide)).1 within
  obtain ⟨-, -, -, condition, fallback, -, -, priority⟩ := (ofJson_obj once).1 decodes
  have proper : s.condition.Proper := by
    rcases orElse_eq_ok.1 condition with ⟨-, absent⟩ | ⟨j, -, decodes⟩
    · rw [absent]
      trivial
    · exact proper_of_ofJson decodes
  have range : -2 ^ 31 ≤ s.priority ∧ s.priority < 2 ^ 31 := by
    rcases orElse_eq_ok.1 priority with ⟨-, absent⟩ | ⟨j, -, decodes⟩
    · rw [absent]
      decide
    · exact (int32_eq_ok.1 decodes).2
  have value : s.fallback.value ≠ some .null ∧ s.Flat := by
    rcases orElse_eq_ok.1 fallback with ⟨-, absent⟩ | ⟨j, found, decodes⟩
    · rw [Flat, absent]
      exact ⟨nofun, nofun⟩
    · exact value_of_ofJson (values _ ((Entries.get?_eq_some_iff once).1 found)) (isFallback j found) decodes
  exact ⟨⟨⟨proper, range.1, range.2⟩, value.1⟩, value.2⟩

/-! ### Lists that were read -/

theorem within_listIn {v : Json} (within : v.Within depthLimit) : (listIn v).Within depthLimit := by
  rw [listIn]
  cases found : v.field? "sections" with
  | none => exact within
  | some j =>
      cases v with
      | obj es =>
          obtain ⟨once, values⟩ := (within_obj (by decide)).1 within
          exact (values _ ((Entries.get?_eq_some_iff once).1 found)).mono (by decide)
      | _ => cases found

theorem decoded_of_readList {text : String} {sections : List Section}
    (accepted : readList text = .ok sections) : ∀ s ∈ sections, s.Decoded ∧ s.Flat := by
  rw [readList, bind_eq_ok] at accepted
  obtain ⟨v, reads, decodes⟩ := accepted
  rw [mapError_eq_ok] at reads
  have within := within_listIn (within_of_read reads)
  obtain ⟨fits, decodes⟩ := listOfJson_ok.1 decodes
  obtain ⟨xs, same, shapes⟩ := (describes_listShape _ _).1 fits
  rw [same] at within decodes
  intro s listed
  obtain ⟨x, member, decodes⟩ := exists_of_mapM_ok decodes s listed
  exact decoded_of_ofJson ((within_arr (by decide)).1 within x member) (shapes x member) decodes

/-! ### Lists that are written -/

theorem isNames_source (s : Source) : IsNames s.toJson := by
  cases s with
  | single name => exact .inl ⟨name, rfl⟩
  | several names => exact .inr (isList_ofStrings names)

theorem isNames_chain (t : Chain) : IsNames t.toJson := by
  cases t with
  | one name => exact .inl ⟨name, rfl⟩
  | many names => exact .inr (isList_ofStrings names)

theorem isCondition_toJson (c : Condition) : IsCondition c.toJson := by
  obtain ⟨tag, sources, spec, relation, scope⟩ := c.toRecord.field?_toJson
  exact ⟨_, rfl, ⟨_, tag, _, rfl⟩, mayHave_of_map sources fun xs => .inr (isList_ofStrings xs),
    mayHave_of_map spec fun s => .inr ⟨s, rfl⟩, mayHave_of_map relation fun s => .inr ⟨s, rfl⟩,
    mayHave_of_map scope fun s => .inr ⟨s, rfl⟩⟩

theorem isFallback_toJson (f : Fallback) : IsFallback f.toJson := by
  refine ⟨_, rfl, mayHave_of_get? f.field?_toJson.1 ?_⟩
  cases f.action <;> simp [IsAction, FallbackAction.name]

theorem isSection_toJson {s : Section} (decoded : s.Decoded) : IsSectionWith IsInt32 s.toJson := by
  obtain ⟨id, outputKey, source, condition, fallback, transform, dependsOn, priority⟩ := s.field?_toJson
  exact ⟨_, rfl, ⟨_, id, _, rfl⟩, ⟨_, outputKey, _, rfl⟩, ⟨_, source, isNames_source _⟩,
    mayHave_of_get? condition (isCondition_toJson _), mayHave_of_get? fallback (isFallback_toJson _),
    mayHave_of_map transform fun t => .inr (isNames_chain t), mayHave_of_map dependsOn isList_ofStrings,
    mayHave_of_get? priority ⟨_, rfl, decoded.least, decoded.less⟩⟩

theorem listOfJson_listToJson {sections : List Section} (decoded : ∀ s ∈ sections, s.Decoded) :
    listOfJson (listToJson sections) = .ok sections := by
  refine listOfJson_ok.2 ⟨(describes_listShape _ _).2 ⟨_, rfl, List.forall_mem_map.2 fun s listed => ?_⟩,
    mapM_map_ok fun s listed => (decoded s listed).ofJson_toJson⟩
  exact (isSection_toJson (decoded s listed)).mono fun _ => isIntegral_of_isInt32

theorem within_source {depth : Nat} (deep : 1 < depth) (s : Source) : s.toJson.Within depth := by
  cases s with
  | single name => exact within_str (Nat.zero_lt_of_lt deep) name
  | several names => exact within_ofStrings deep names

theorem within_chain {depth : Nat} (deep : 1 < depth) (t : Chain) : t.toJson.Within depth := by
  cases t with
  | one name => exact within_str (Nat.zero_lt_of_lt deep) name
  | many names => exact within_ofStrings deep names

theorem within_condition (c : Condition) : c.toJson.Within (depthLimit - 2) := by
  refine (within_obj (by decide)).2 ⟨c.toRecord.nodup_keys_toJson, ?_⟩
  simp only [List.forall_mem_append, Entries.forall_mem_optional, List.forall_mem_singleton]
  exact ⟨⟨⟨⟨within_str (by decide) _, fun xs _ => within_ofStrings (by decide) xs⟩,
    fun s _ => within_str (by decide) s⟩, fun s _ => within_str (by decide) s⟩,
    fun s _ => within_str (by decide) s⟩

theorem within_fallback {s : Section} (flat : s.Flat) : s.fallback.toJson.Within (depthLimit - 2) := by
  refine (within_obj (by decide)).2 ⟨s.fallback.nodup_keys_toJson, ?_⟩
  rw [List.forall_mem_append, List.forall_mem_singleton]
  exact ⟨within_str (by decide) _, Entries.forall_mem_optional.2 flat⟩

theorem within_toJson {s : Section} (decoded : s.Decoded) (flat : s.Flat) :
    s.toJson.Within (depthLimit - 1) := by
  have priority : (num (.int s.priority)).Within (depthLimit - 2) :=
    ⟨.int (by have := decoded.least; omega) (by have := decoded.less; omega), Nat.zero_lt_succ _⟩
  have once := s.nodup_keys_toJson
  rw [toJson_eq] at once ⊢
  refine (within_obj (by decide)).2 ⟨once, ?_⟩
  simp only [List.forall_mem_append, List.forall_mem_cons, Entries.forall_mem_optional]
  exact ⟨⟨⟨⟨within_str (by decide) _, within_str (by decide) _, within_source (by decide) _, within_condition _,
    within_fallback flat, List.forall_mem_nil _⟩, fun t _ => within_chain (by decide) t⟩,
    fun ids _ => within_ofStrings (by decide) ids⟩, priority, List.forall_mem_nil _⟩

theorem within_listToJson {sections : List Section} (decoded : ∀ s ∈ sections, s.Decoded ∧ s.Flat) :
    (listToJson sections).Within depthLimit :=
  (within_arr (by decide)).2 (List.forall_mem_map.2 fun s listed =>
    within_toJson (decoded s listed).1 (decoded s listed).2)

theorem readList_compact {sections : List Section} (decoded : ∀ s ∈ sections, s.Decoded ∧ s.Flat) :
    readList (listToJson sections).compact = .ok (sections.map rereads) := by
  have within := within_listToJson decoded
  have reads := (read_compact within.1).1 within.2
  rw [rereads_listToJson] at reads
  rw [readList_of_read reads]
  exact listOfJson_listToJson (List.forall_mem_map.2 fun s listed => (decoded s listed).1.rereads)

/-- The text written for a list that was read is accepted. It gives the list with the doubles of its fallback
values read anew, so the same list where each of them is read as itself, and only there. -/
theorem readList_listToJson {text : String} {sections : List Section}
    (accepted : readList text = .ok sections) :
    readList (listToJson sections).compact = .ok (sections.map rereads) ∧
      (readList (listToJson sections).compact = .ok sections ↔
        ∀ s ∈ sections, ∀ x ∈ s.doubles, reread x = x) := by
  have again := readList_compact (decoded_of_readList accepted)
  have each : sections.map rereads = sections ↔ ∀ s ∈ sections, s.rereads = s := by
    rw [← List.map_eq_map_iff, List.map_id']
  refine ⟨again, ?_⟩
  rw [again, Except.ok.injEq, each]
  exact forall_congr' fun s => imp_congr_right fun _ => s.rereads_eq_self_iff

def storing (x : Float) : Section :=
  { id := "a", outputKey := "a", source := .single "x", fallback := .withValue (.num (.double x)) }

theorem rereads_storing (x : Float) : (storing x).rereads = storing (reread x) := rfl

theorem storing_injective : Function.Injective storing := by
  intro x y same
  simpa [storing, Fallback.withValue] using same

/-- The same section, with an unknown field, a parameter that is not used and a transform that is null. -/
def verbose (x : Float) : Json :=
  .arr [.obj [("id", .str "a"), ("note", .arr []), ("outputKey", .str "a"), ("dataSource", .str "x"),
    ("activateWhen", .obj [("condition", .str "always"), ("spec", .str "tone")]), ("transform", .null),
    ("fallback", .obj [("action", .str "emptyObject"), ("value", .num (.double x))])]]

theorem readList_verbose {x : Float} (finite : x.isFinite = true) :
    readList (verbose x).compact = .ok [storing (reread x)] := by
  have sound : (verbose x).Sound := by
    refine .arr (List.forall_mem_singleton.2 (.obj (by simp [Entries.keys]) ?_))
    simp only [List.forall_mem_cons]
    refine ⟨.str _, .arr (List.forall_mem_nil _), .str _, .str _, .obj (by decide) ?_, .null,
      .obj (by simp [Entries.keys]) ?_, List.forall_mem_nil _⟩
    · simp only [List.forall_mem_cons]
      exact ⟨.str _, .str _, List.forall_mem_nil _⟩
    · simp only [List.forall_mem_cons]
      exact ⟨.str _, .double finite, List.forall_mem_nil _⟩
  have flat : (verbose x).nest < depthLimit := show 3 < 128 by decide
  rw [readList_of_read ((read_compact sound).1 flat)]
  rfl

theorem readList_verbose_half :
    readList (verbose 0.5).compact = .ok [storing 0.5] ∧
      readList (listToJson [storing 0.5]).compact = .ok [storing 0.5] := by
  have same : reread 0.5 = 0.5 := by decide +kernel
  have accepted := readList_verbose (show (0.5 : Float).isFinite = true by decide +kernel)
  rw [same] at accepted
  refine ⟨accepted, (readList_listToJson accepted).2.2 ?_⟩
  intro s listed x member
  cases List.mem_singleton.1 listed
  cases List.mem_singleton.1 member
  exact same

/-- The double that is read from `1e-30` is another one, and so is the one that is read from its own text. -/
theorem readList_verbose_tiny :
    readList (verbose 1e-30).compact = .ok [storing (reread 1e-30)] ∧
      readList (listToJson [storing (reread 1e-30)]).compact ≠ .ok [storing (reread 1e-30)] := by
  have accepted := readList_verbose (show (1e-30 : Float).isFinite = true by decide +kernel)
  have other : reread (reread 1e-30) ≠ reread 1e-30 := by decide +kernel
  refine ⟨accepted, ?_⟩
  rw [readList_compact (decoded_of_readList accepted), List.map_singleton, rereads_storing]
  intro same
  exact other (storing_injective (List.singleton_inj.1 (Except.ok.inj same)))

end Section

end Prompt
