import Prompt.Proofs.Json.Conforms
import Prompt.Proofs.Json.Held
import Prompt.Section.Schema

/-!
# Which section lists are accepted

A list is taken when it passes the schema and can then be decoded. Together the two accept one grammar
(`IsSectionList`); the schema alone accepts the same up to priorities, which need not be whole numbers of 32
bits there. The text of a list can only be accepted where it can be read, which the depth of its values limits
(`readList_iff`).
-/

namespace Prompt.Section
open Json

/-! ### The grammar -/

def IsCondition (j : Json) : Prop :=
  ∃ es : Entries Json, j = .obj es ∧ Has es "condition" IsString ∧
    MayHave es "sources" (OrNull (IsList IsString)) ∧ MayHave es "spec" (OrNull IsString) ∧
    MayHave es "relation" (OrNull IsString) ∧ MayHave es "scope" (OrNull IsString)

def IsAction (j : Json) : Prop := ∃ name ∈ ["null", "emptyObject", "omit", "skip"], j = .str name

/-- Under `value` anything may stand. -/
def IsFallback (j : Json) : Prop := ∃ es : Entries Json, j = .obj es ∧ MayHave es "action" IsAction

/-- A section whose priority, where it has one, is of such a kind. -/
def IsSectionWith (priority : Json → Prop) (j : Json) : Prop :=
  ∃ es : Entries Json, j = .obj es ∧ Has es "id" IsString ∧ Has es "outputKey" IsString ∧
    Has es "dataSource" IsNames ∧ MayHave es "activateWhen" IsCondition ∧
    MayHave es "fallback" IsFallback ∧ MayHave es "transform" (OrNull IsNames) ∧
    MayHave es "dependsOn" (IsList IsString) ∧ MayHave es "priority" priority

def IsSectionList : Json → Prop := IsList (IsSectionWith IsInt32)

/-! ### The schema -/

theorem describes_conditionShape : Describes conditionShape IsCondition := fun place j => by
  rw [conditionShape, violations_object]
  refine exists_congr fun es => and_congr_right fun _ => ?_
  simp only [List.forall_mem_cons, describes_string _ _, describes_optionalString _ _,
    describes_string.optionalList _ _, has_iff]
  tauto

theorem describes_names (keyword : String) : Describes (.either keyword namesShapes) IsNames :=
  fun place j => by
    simp [violations_either, namesShapes, describes_string _ _, describes_string.list _ _, IsNames]

theorem describes_action (keyword : String) :
    Describes (.either keyword (FallbackAction.all.map fun a => .exactly a.name)) IsAction :=
  fun place j => by
    simp [violations_either, FallbackAction.all, FallbackAction.name, describes_exactly _ _ _, IsAction]

theorem describes_fallbackShape : Describes fallbackShape IsFallback := fun place j => by
  rw [fallbackShape, violations_object]
  refine exists_congr fun es => and_congr_right fun _ => ?_
  simp only [List.forall_mem_cons, describes_action _ _ _, describes_anything _ _,
    mayHave_true]
  tauto

theorem describes_shape : Describes shape (IsSectionWith fun j => j.isIntegral = true) := fun place j => by
  have transform (keyword : String) :
      Describes (.either keyword [.either keyword namesShapes, .none]) (OrNull IsNames) := fun place j => by
    simp [violations_either, describes_names _ _ _, describes_none _ _, OrNull, or_comm]
  rw [shape, violations_object]
  refine exists_congr fun es => and_congr_right fun _ => ?_
  simp only [List.forall_mem_cons, describes_conditionShape _ _, describes_names _ _ _,
    describes_string.list _ _, describes_fallbackShape _ _, describes_string _ _, describes_integer _ _,
    transform _ _ _, has_iff]
  tauto

/-! ### Decoding -/

theorem accepts_strings {j : Json} : Accepts (.list .string) j ↔ IsList IsString j := by
  simp only [accepts_list, IsList, accepts_string]

theorem conditionRecord_obj {es : Entries Json} (once : es.keys.Nodup) {r : ConditionRecord} :
    ConditionRecord.ofJson (.obj es) = .ok r ↔ need es "condition" .string = .ok r.tag ∧
      orElse es "sources" (.optional (.list .string)) none = .ok r.sources ∧
      orElse es "spec" (.optional .string) none = .ok r.spec ∧
      orElse es "relation" (.optional .string) none = .ok r.relation ∧
      orElse es "scope" (.optional .string) none = .ok r.scope := by
  simp only [ConditionRecord.ofJson, bind_eq_ok]
  constructor
  · rintro ⟨fs, record, a, tag, b, sources, c, spec, d, relation, e, scope, same⟩
    cases eq_of_readRecord record
    cases same
    exact ⟨tag, sources, spec, relation, scope⟩
  · rintro ⟨tag, sources, spec, relation, scope⟩
    refine ⟨es, readRecord_obj once ?_, _, tag, _, sources, _, spec, _, relation, _, scope, rfl⟩
    simp only [ConditionRecord.fields, List.forall_mem_cons, fits_mandatory, fits_defaulted]
    exact ⟨has_of_need tag, mayHave_of_orElse sources, mayHave_of_orElse spec, mayHave_of_orElse relation,
      mayHave_of_orElse scope, List.forall_mem_nil _⟩

theorem fallback_obj {es : Entries Json} (once : es.keys.Nodup) {f : Fallback} :
    Fallback.ofJson (.obj es) = .ok f ↔ orElse es "action" FallbackAction.ofJson .null = .ok f.action ∧
      orElse es "value" (.optional .value) none = .ok f.value := by
  simp only [Fallback.ofJson, bind_eq_ok]
  constructor
  · rintro ⟨fs, record, a, action, b, value, same⟩
    cases eq_of_readRecord record
    cases same
    exact ⟨action, value⟩
  · rintro ⟨action, value⟩
    refine ⟨es, readRecord_obj once ?_, _, action, _, value, rfl⟩
    simp only [List.forall_mem_cons, fits_defaulted]
    exact ⟨mayHave_of_orElse action, mayHave_of_orElse value, List.forall_mem_nil _⟩

theorem ofJson_obj {es : Entries Json} (once : es.keys.Nodup) {s : Section} :
    ofJson (.obj es) = .ok s ↔ need es "id" .string = .ok s.id ∧
      need es "outputKey" .string = .ok s.outputKey ∧
      need es "dataSource" Source.ofJson = .ok s.source ∧
      orElse es "activateWhen" Condition.ofJson .always = .ok s.condition ∧
      orElse es "fallback" Fallback.ofJson {} = .ok s.fallback ∧
      orElse es "transform" (.optional Chain.ofJson) none = .ok s.transform ∧
      orElse es "dependsOn" (.list .string) [] = .ok s.dependsOn ∧
      orElse es "priority" .int32 0 = .ok s.priority := by
  simp only [ofJson, bind_eq_ok]
  constructor
  · rintro ⟨fs, record, a, id, b, outputKey, c, source, d, condition, e, fallback, f, transform, g,
      dependsOn, h, priority, same⟩
    cases eq_of_readRecord record
    cases same
    exact ⟨id, outputKey, source, condition, fallback, transform, dependsOn, priority⟩
  · rintro ⟨id, outputKey, source, condition, fallback, transform, dependsOn, priority⟩
    refine ⟨es, readRecord_obj once ?_, _, id, _, outputKey, _, source, _, condition, _, fallback, _,
      transform, _, dependsOn, _, priority, rfl⟩
    simp only [fields, List.forall_mem_cons, fits_mandatory, fits_defaulted]
    exact ⟨has_of_need id, has_of_need outputKey, has_of_need source, mayHave_of_orElse condition,
      mayHave_of_orElse fallback, mayHave_of_orElse transform, mayHave_of_orElse dependsOn,
      mayHave_of_orElse priority, List.forall_mem_nil _⟩

theorem accepts_condition {j : Json} (distinct : j.Distinct) (is : IsCondition j) :
    Accepts Condition.ofJson j := by
  obtain ⟨es, rfl, tag, sources, spec, relation, scope⟩ := is
  obtain ⟨once, -⟩ := distinct.entries
  have strings (j : Json) : Accepts (.optional (.list .string)) j ↔ OrNull (IsList IsString) j := by
    rw [accepts_optional, OrNull, OrNull, accepts_strings]
  have string (j : Json) : Accepts (.optional .string) j ↔ OrNull IsString j := by
    rw [accepts_optional, OrNull, OrNull, accepts_string]
  rw [← has_congr fun j => accepts_string] at tag
  rw [← mayHave_congr strings] at sources
  rw [← mayHave_congr string] at spec relation scope
  obtain ⟨a, tag⟩ := exists_need tag
  obtain ⟨b, sources⟩ := exists_orElse none sources
  obtain ⟨c, spec⟩ := exists_orElse none spec
  obtain ⟨d, relation⟩ := exists_orElse none relation
  obtain ⟨e, scope⟩ := exists_orElse none scope
  exact accepts_map.2 ⟨⟨a, b, c, d, e⟩, (conditionRecord_obj once).2 ⟨tag, sources, spec, relation, scope⟩⟩

theorem accepts_fallback {j : Json} (distinct : j.Distinct) (is : IsFallback j) :
    Accepts Fallback.ofJson j := by
  obtain ⟨es, rfl, action⟩ := is
  obtain ⟨once, -⟩ := distinct.entries
  have action : MayHave es "action" (Accepts FallbackAction.ofJson) := by
    intro j found
    obtain ⟨name, listed, rfl⟩ := action j found
    exact accepts_map.2 (accepts_variant listed)
  have value : MayHave es "value" (Accepts (.optional .value)) := fun j found =>
    accepts_optional.2 (.inr (accepts_value j))
  obtain ⟨a, action⟩ := exists_orElse .null action
  obtain ⟨b, value⟩ := exists_orElse none value
  exact ⟨⟨a, b⟩, (fallback_obj once).2 ⟨action, value⟩⟩

/-- A section that is of the grammar up to its priority is refused by the decoder for the priority only. -/
theorem accepts_section {x : Json} {p : Json → Prop} (distinct : x.Distinct) (is : IsSectionWith p x) :
    Accepts ofJson x ↔ MayHave x.entries "priority" IsInt32 := by
  obtain ⟨es, rfl, id, outputKey, source, condition, fallback, transform, dependsOn, -⟩ := is
  obtain ⟨once, inside⟩ := distinct.entries
  have transforms (j : Json) : Accepts (.optional Chain.ofJson) j ↔ OrNull IsNames j := by
    rw [accepts_optional, OrNull, OrNull, Chain.ofJson, accepts_names]
  change _ ↔ MayHave es "priority" IsInt32
  rw [← mayHave_congr fun j => accepts_int32]
  constructor
  · rintro ⟨s, decodes⟩
    obtain ⟨-, -, -, -, -, -, -, priority⟩ := (ofJson_obj once).1 decodes
    exact mayHave_of_orElse priority
  · intro priority
    rw [← has_congr fun j => accepts_string] at id outputKey
    have source : Has es "dataSource" (Accepts Source.ofJson) :=
      (has_congr (fun j => accepts_names) es _).2 source
    have condition : MayHave es "activateWhen" (Accepts Condition.ofJson) := fun j found =>
      accepts_condition (inside found) (condition j found)
    have fallback : MayHave es "fallback" (Accepts Fallback.ofJson) := fun j found =>
      accepts_fallback (inside found) (fallback j found)
    rw [← mayHave_congr transforms] at transform
    rw [← mayHave_congr fun j => accepts_strings] at dependsOn
    obtain ⟨a, id⟩ := exists_need id
    obtain ⟨b, outputKey⟩ := exists_need outputKey
    obtain ⟨c, source⟩ := exists_need source
    obtain ⟨d, condition⟩ := exists_orElse .always condition
    obtain ⟨e, fallback⟩ := exists_orElse {} fallback
    obtain ⟨f, transform⟩ := exists_orElse none transform
    obtain ⟨g, dependsOn⟩ := exists_orElse [] dependsOn
    obtain ⟨h, priority⟩ := exists_orElse 0 priority
    exact ⟨⟨a, b, c, d, e, f, g, h⟩, (ofJson_obj once).2
      ⟨id, outputKey, source, condition, fallback, transform, dependsOn, priority⟩⟩

/-! ### Lists -/

theorem isIntegral_of_isInt32 {j : Json} (is : IsInt32 j) : j.isIntegral = true := by
  obtain ⟨n, rfl, -⟩ := is
  rfl

theorem IsSectionWith.mono {p q : Json → Prop} (weaker : ∀ j, p j → q j) {x : Json}
    (is : IsSectionWith p x) : IsSectionWith q x := by
  obtain ⟨es, rfl, id, outputKey, source, condition, fallback, transform, dependsOn, priority⟩ := is
  exact ⟨es, rfl, id, outputKey, source, condition, fallback, transform, dependsOn,
    fun j found => weaker j (priority j found)⟩

theorem isSection_iff {x : Json} (distinct : x.Distinct) :
    IsSectionWith IsInt32 x ↔ IsSectionWith (fun j => j.isIntegral = true) x ∧ Accepts ofJson x := by
  constructor
  · intro is
    have loose := is.mono fun _ => isIntegral_of_isInt32
    obtain ⟨es, rfl, -, -, -, -, -, -, -, priority⟩ := is
    exact ⟨loose, (accepts_section distinct loose).2 priority⟩
  · rintro ⟨loose, decodes⟩
    have priority := (accepts_section distinct loose).1 decodes
    obtain ⟨es, rfl, id, outputKey, source, condition, fallback, transform, dependsOn, -⟩ := loose
    exact ⟨es, rfl, id, outputKey, source, condition, fallback, transform, dependsOn, priority⟩

theorem describes_listShape :
    Describes listShape (IsList (IsSectionWith fun j => j.isIntegral = true)) := describes_shape.list

theorem listOfJson_ok {j : Json} {sections : List Section} :
    listOfJson j = .ok sections ↔
      listShape.violations [] j = [] ∧ Decoder.list ofJson j = .ok sections := by
  rw [listOfJson]
  split
  · next none => rw [mapError_eq_ok, and_iff_right none]
  · next some => exact iff_of_false nofun fun both => some both.1

theorem listOfJson_undecodable {j : Json} :
    (∃ e, listOfJson j = .error (.undecodable e)) ↔
      listShape.violations [] j = [] ∧ ¬ Accepts (.list ofJson) j := by
  rw [listOfJson, Accepts]
  split
  · next none =>
      cases Decoder.list ofJson j <;> simp [none, Except.mapError]
  · next some =>
      refine iff_of_false ?_ fun both => some both.1
      rintro ⟨_, same⟩
      cases same

theorem distinct_items {xs : List Json} (distinct : (Json.arr xs).Distinct) : ∀ x ∈ xs, x.Distinct := by
  cases distinct with
  | arr items => exact items

theorem listOfJson_iff {j : Json} (distinct : j.Distinct) :
    (∃ sections, listOfJson j = .ok sections) ↔ IsSectionList j := by
  simp only [listOfJson_ok, exists_and_left]
  rw [describes_listShape]
  change _ ∧ Accepts _ _ ↔ _
  rw [accepts_list]
  constructor
  · rintro ⟨⟨xs, rfl, loose⟩, ys, same, decodes⟩
    cases same
    exact ⟨xs, rfl, fun x listed =>
      (isSection_iff (distinct_items distinct x listed)).2 ⟨loose x listed, decodes x listed⟩⟩
  · rintro ⟨xs, rfl, sections⟩
    have both (x : Json) (listed : x ∈ xs) :=
      (isSection_iff (distinct_items distinct x listed)).1 (sections x listed)
    exact ⟨⟨xs, rfl, fun x listed => (both x listed).1⟩, xs, rfl, fun x listed => (both x listed).2⟩

/-- What passes the schema and is not decoded has a priority that is no whole number of 32 bits. -/
theorem undecodable_iff {j : Json} (distinct : j.Distinct) :
    (∃ e, listOfJson j = .error (.undecodable e)) ↔ listShape.violations [] j = [] ∧
      ∃ x ∈ j.items, ∃ p, x.field? "priority" = some p ∧ ¬ IsInt32 p := by
  rw [listOfJson_undecodable]
  refine and_congr_right fun fits => ?_
  obtain ⟨xs, rfl, loose⟩ := (describes_listShape _ _).1 fits
  have each (x : Json) (listed : x ∈ xs) :
      ¬ Accepts ofJson x ↔ ∃ p, x.field? "priority" = some p ∧ ¬ IsInt32 p := by
    rw [accepts_section (distinct_items distinct x listed) (loose x listed), MayHave]
    push Not
    rfl
  have items : IsList (Accepts ofJson) (.arr xs) ↔ ∀ x ∈ xs, Accepts ofJson x := by
    simp [IsList]
  rw [accepts_list, items]
  push Not
  exact exists_congr fun x => and_congr_right (each x)

/-! ### Texts -/

theorem distinct_listIn {v : Json} (distinct : v.Distinct) : (listIn v).Distinct := by
  rw [listIn]
  cases found : v.field? "sections" with
  | none => exact distinct
  | some j =>
      cases v with
      | obj es => exact distinct.entries.2 found
      | _ => cases found

theorem readList_of_read {text : String} {v : Json} (reads : Json.read text = .ok v) :
    readList text = listOfJson (listIn v) := by
  rw [readList, reads]
  rfl

theorem stable_isCondition : Stable IsCondition := stable_object fun es => by
  simp only [stable_isString.has, stable_isString.list.orNull.mayHave, stable_isString.orNull.mayHave]

theorem stable_isAction : Stable IsAction := fun j => exists_congr fun name =>
  and_congr_right fun _ => stable_eq_str name j

theorem stable_isFallback : Stable IsFallback := stable_object fun es => by
  simp only [stable_isAction.mayHave]

theorem stable_isSection : Stable (IsSectionWith IsInt32) := stable_object fun es => by
  simp only [stable_isString.has, stable_isNames.has, stable_isCondition.mayHave, stable_isFallback.mayHave,
    stable_isNames.orNull.mayHave, stable_isString.list.mayHave, stable_isInt32.mayHave]

theorem listIn_rereads (v : Json) : listIn v.rereads = (listIn v).rereads := by
  cases v with
  | obj es =>
      rw [listIn, listIn, rereads, field?_obj, field?_obj, get?_rereadEntries]
      cases Entries.get? es "sections" <;> simp [rereads]
  | num n => cases n <;> rfl
  | null | bool | str | arr => rw [rereads]; rfl

theorem readList_of_deep {v : Json} (sound : v.Sound) (deep : 127 < v.nest) :
    ¬ ∃ sections, readList v.compact = .ok sections := by
  rintro ⟨sections, accepted⟩
  obtain ⟨failure, fails⟩ := (read_compact sound).2 deep
  rw [readList, fails] at accepted
  cases accepted

/-- A text that is read as `v` is accepted where the list in `v` is of the grammar, and what passes the schema
the decoder refuses for a priority only. The text written for `v` is one of these, unless `v` nests too
deep. -/
theorem readList_iff (v : Json) :
    (∀ text, Json.read text = .ok v →
      ((∃ sections, readList text = .ok sections) ↔ IsSectionList (listIn v)) ∧
      ((∃ e, readList text = .error (.undecodable e)) ↔
        listShape.violations [] (listIn v) = [] ∧
          ∃ x ∈ (listIn v).items, ∃ p, x.field? "priority" = some p ∧ ¬ IsInt32 p)) ∧
    (v.Sound → ((∃ sections, readList v.compact = .ok sections) ↔
      v.nest ≤ 127 ∧ IsSectionList (listIn v))) := by
  refine ⟨fun text reads => ?_, fun sound => ?_⟩
  · have distinct := distinct_listIn (distinct_of_read reads)
    rw [readList_of_read reads]
    exact ⟨listOfJson_iff distinct, undecodable_iff distinct⟩
  · rcases Nat.lt_or_ge 127 v.nest with deep | flat
    · exact iff_of_false (readList_of_deep sound deep) fun both => Nat.not_le.2 deep both.1
    · have reads := (read_compact sound).1 (Nat.lt_succ_of_le flat)
      rw [readList_of_read reads, listOfJson_iff (distinct_listIn (distinct_of_read reads)), listIn_rereads,
        IsSectionList, stable_isSection.list, and_iff_right flat]

/-- A section with one field beside those that it must have, alone in its list. -/
def listWith (key : String) (j : Json) : Json :=
  .arr [.obj [("id", .str "a"), ("outputKey", .str "a"), ("dataSource", .str "x"), (key, j)]]

theorem sound_listWith {key : String} {j : Json} (other : key ∉ ["id", "outputKey", "dataSource"])
    (sound : j.Sound) : (listWith key j).Sound := by
  refine .arr (List.forall_mem_singleton.2 (.obj ?_ ?_))
  · simp only [List.mem_cons, List.not_mem_nil, or_false, not_or] at other
    simp [Entries.keys, Ne.symm other.1, Ne.symm other.2.1, Ne.symm other.2.2]
  · simp only [List.forall_mem_cons]
    exact ⟨.str "a", .str "a", .str "x", sound, List.forall_mem_nil _⟩

theorem isSectionList_listWith {key : String} {j : Json}
    (free : key ∉ ["activateWhen", "fallback", "transform", "dependsOn"])
    (priority : key = "priority" → IsInt32 j) : IsSectionList (listWith key j) := by
  simp only [List.mem_cons, List.not_mem_nil, or_false, not_or] at free
  obtain ⟨activateWhen, fallback, transform, dependsOn⟩ := free
  refine ⟨_, rfl, List.forall_mem_singleton.2 ⟨_, rfl, ?_⟩⟩
  simpa [Has, MayHave, Entries.get?, activateWhen, fallback, transform, dependsOn, IsString, IsNames]
    using priority

theorem readList_iff_priority :
    (∃ sections, readList (listWith "priority" (.num (.int 7))).compact = .ok sections) ∧
      ∃ e, readList (listWith "priority" (.num (.int (2 ^ 31)))).compact = .error (.undecodable e) := by
  constructor
  · have sound : (listWith "priority" (.num (.int 7))).Sound :=
      sound_listWith (by decide) (.int (by decide) (by decide))
    exact ((readList_iff _).2 sound).2 ⟨by decide, isSectionList_listWith (by decide) fun _ =>
      ⟨7, rfl, by decide, by decide⟩⟩
  · have sound : (listWith "priority" (.num (.int (2 ^ 31)))).Sound :=
      sound_listWith (by decide) (.int (by decide) (by decide))
    have reads := (read_compact sound).1 (by decide)
    refine (((readList_iff _).1 _ reads).2).2 ⟨rfl, _, List.mem_singleton.2 rfl, _, rfl, ?_⟩
    rintro ⟨n, same, -, less⟩
    cases same
    exact absurd less (by decide)

/-- As many lists around `null`, each in the next. -/
def boxed : Nat → Json
  | 0 => .null
  | n + 1 => .arr [boxed n]

theorem nest_boxed (n : Nat) : (boxed n).nest = n := by
  induction n with
  | zero => rfl
  | succ n ih => rw [boxed, nest, nestItems, nestItems, ih, Nat.max_zero]

theorem sound_boxed (n : Nat) : (boxed n).Sound := by
  induction n with
  | zero => exact .null
  | succ n ih => exact .arr (List.forall_mem_singleton.2 ih)

/-- Of the grammar, and refused for a field that is not looked at. -/
theorem readList_boxed :
    (listWith "extra" (boxed 126)).Sound ∧ IsSectionList (listIn (listWith "extra" (boxed 126))) ∧
      ¬ ∃ sections, readList (listWith "extra" (boxed 126)).compact = .ok sections := by
  have sound : (listWith "extra" (boxed 126)).Sound := sound_listWith (by decide) (sound_boxed 126)
  have deep : 127 < (listWith "extra" (boxed 126)).nest := by
    simp [listWith, nest, nestItems, nestEntries, nest_boxed]
  exact ⟨sound, isSectionList_listWith (by decide) fun same => absurd same (by decide),
    readList_of_deep sound deep⟩

end Prompt.Section
