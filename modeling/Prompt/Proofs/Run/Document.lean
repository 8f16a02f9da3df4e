import Mathlib.Data.List.Basic
import Prompt.Proofs.Order.Precedence
import Prompt.Proofs.Repeats
import Prompt.Proofs.Run.Loop
import Prompt.Proofs.Table

/-!
# The document of a run

Under each key stands what was stored under it last (`get?_outputs`), without its private fields. The
walk through the sections that puts the document together meets the keys in the order of the run
(`keys_kept`). `document_of_run` says what a document holds, in which order.
-/

namespace Prompt

/-- What the last visit that stores something under a key stores. -/
def lastStored? (vs : List Visit) (key : String) : Option Json :=
  ((vs.filter fun v => v.step.outputKey == key).filterMap fun v => v.outcome.stored?).getLast?

theorem lastStored?_append_singleton (vs : List Visit) (v : Visit) (key : String) :
    lastStored? (vs ++ [v]) key =
      if v.step.outputKey = key then v.outcome.stored?.or (lastStored? vs key)
      else lastStored? vs key := by
  unfold lastStored?
  by_cases same : v.step.outputKey = key
  · cases stored : v.outcome.stored? <;> simp [List.filter_append, List.filterMap_append, same, stored]
  · simp [List.filter_append, same]

theorem isSome_lastStored? {vs : List Visit} {key : String} :
    (lastStored? vs key).isSome = true ↔
      ∃ v ∈ vs, v.step.outputKey = key ∧ v.outcome.stored?.isSome = true := by
  unfold lastStored?
  rw [List.getLast?_isSome, ← List.length_pos_iff, List.length_pos_iff_exists_mem]
  constructor
  · rintro ⟨j, member⟩
    obtain ⟨v, found, stored⟩ := List.mem_filterMap.mp member
    obtain ⟨member, same⟩ := List.mem_filter.mp found
    exact ⟨v, member, beq_iff_eq.mp same, by simp [stored]⟩
  · rintro ⟨v, member, same, stored⟩
    obtain ⟨j, stored⟩ := Option.isSome_iff_exists.mp stored
    exact ⟨j, List.mem_filterMap.mpr
      ⟨v, List.mem_filter.mpr ⟨member, beq_iff_eq.mpr same⟩, stored⟩⟩

theorem get?_outputs (vs : List Visit) (c : Context) (key : String) :
    (vs.foldl Context.afterVisit c).outputs.get? key =
      (lastStored? vs key).or (c.outputs.get? key) := by
  induction vs using List.reverseRecOn with
  | nil => rfl
  | append_singleton vs v ih =>
      rw [List.foldl_append, List.foldl_cons, List.foldl_nil, lastStored?_append_singleton,
        Context.afterVisit]
      cases stored : v.outcome.stored? with
      | none => simp [ih]
      | some value =>
          simp only [Context.store, Entries.get?_insert, ih]
          split <;> rfl

/-! ### Putting the document together -/

section Walk
variable (outputs : Entries Json) (start : String)

/-- The document before the version and the summary are added. -/
def kept (sections : List Section) : Entries Json :=
  sections.foldl (keepOutput outputs start) []

theorem kept_append_singleton (sections : List Section) (s : Section) :
    kept outputs start (sections ++ [s]) = keepOutput outputs start (kept outputs start sections) s := by
  simp [kept]

theorem get?_keepOutput (document : Entries Json) (s : Section) (key : String) :
    (keepOutput outputs start document s).get? key =
      (document.get? key).or
        (if s.outputKey = key then (outputs.get? key).map (withoutPrivate start) else none) := by
  unfold keepOutput
  by_cases same : s.outputKey = key
  · subst same
    cases present : document.get? s.outputKey with
    | some j => simp [Entries.contains, present]
    | none => cases output : outputs.get? s.outputKey <;> simp [Entries.contains, present]
  · split
    · simp
    · cases outputs.get? s.outputKey <;> simp [same, Entries.get?_insert]

theorem get?_kept (sections : List Section) (key : String) :
    (kept outputs start sections).get? key =
      if key ∈ sections.map Section.outputKey then
        (outputs.get? key).map (withoutPrivate start) else none := by
  induction sections using List.reverseRecOn with
  | nil => rfl
  | append_singleton sections s ih =>
      rw [kept_append_singleton, get?_keepOutput, ih]
      simp only [List.map_append, List.mem_append, List.map_cons, List.map_nil, List.mem_singleton,
        eq_comm (a := key)]
      by_cases before : key ∈ sections.map Section.outputKey
      · cases outputs.get? key <;> simp [before]
      · simp [before]

theorem keys_keepOutput (document : Entries Json) (s : Section) :
    (keepOutput outputs start document s).keys =
      if document.contains s.outputKey = false ∧ outputs.contains s.outputKey = true then
        document.keys ++ [s.outputKey] else document.keys := by
  unfold keepOutput
  cases present : document.contains s.outputKey with
  | true => simp
  | false =>
      cases output : outputs.get? s.outputKey with
      | none => simp [Entries.contains, output]
      | some j => simp [Entries.contains, output, Entries.keys_insert_of_not_contains present]

theorem keys_kept (sections : List Section) :
    (kept outputs start sections).keys =
      (sections.map Section.outputKey).eraseDups.filter outputs.contains := by
  induction sections using List.reverseRecOn with
  | nil => rfl
  | append_singleton sections s ih =>
      have present : (kept outputs start sections).contains s.outputKey =
          (decide (s.outputKey ∈ sections.map Section.outputKey) && outputs.contains s.outputKey) := by
        unfold Entries.contains
        rw [get?_kept]
        by_cases before : s.outputKey ∈ sections.map Section.outputKey <;> simp [before]
      rw [kept_append_singleton, keys_keepOutput, present, ih, List.map_append, List.map_singleton,
        eraseDups_append_singleton]
      by_cases before : s.outputKey ∈ sections.map Section.outputKey
      · simp only [before, decide_true, Bool.true_and, if_true]
        cases outputs.contains s.outputKey <;> simp
      · simp only [before, decide_false, Bool.false_and, if_false, true_and, List.filter_append]
        cases output : outputs.contains s.outputKey <;> simp [output]

theorem nodup_keys_kept (sections : List Section) : (kept outputs start sections).keys.Nodup := by
  induction sections using List.reverseRecOn with
  | nil => exact List.nodup_nil
  | append_singleton sections s ih =>
      rw [kept_append_singleton, keepOutput]
      split
      · exact ih
      · split
        · exact Entries.nodup_keys_insert ih _ _
        · exact ih

end Walk

/-! ### The finished document -/

/-- How a stored value shows in a document: an object without the fields whose names begin with `start`,
if that is not empty, and any other value as it is. -/
structure ShownAs (start : String) (stored shown : Json) : Prop where
  object : ∀ es, stored = .obj es → start ≠ "" →
    shown = .obj (es.filter fun e => ¬ start.toList <+: e.1.toList)
  same : start = "" ∨ stored.isObject = false → shown = stored

theorem shownAs_withoutPrivate (start : String) (stored : Json) :
    ShownAs start stored (withoutPrivate start stored) where
  object := by
    rintro es rfl nonempty
    simp only [withoutPrivate, nonempty, if_false]
    congr 2
    funext e
    rw [Bool.eq_iff_iff]
    simp [← List.isPrefixOf_iff_prefix]
  same := by
    rintro (rfl | other)
    · cases stored <;> rfl
    · cases stored <;> first | rfl | cases other

def isReserved (key : String) : Bool := key == versionKey || key == summaryKey

theorem versionKey_ne_summaryKey : versionKey ≠ summaryKey := by decide

section Assemble
variable (sections : List Section) (outputs : Entries Json) (start : String)

theorem get?_assemble_of_not_isReserved {key : String} (ordinary : isReserved key = false) :
    (assemble sections outputs start).get? key = (kept outputs start sections).get? key := by
  simp only [isReserved, Bool.or_eq_false_iff, beq_eq_false_iff_ne] at ordinary
  unfold assemble
  rw [Entries.get?_insert_of_ne _ _ ordinary.2.symm, Entries.get?_insert_of_ne _ _ ordinary.1.symm]
  rfl

theorem get?_assemble_version :
    (assemble sections outputs start).get? versionKey = some (.str formatVersion) := by
  unfold assemble
  rw [Entries.get?_insert_of_ne _ _ versionKey_ne_summaryKey.symm, Entries.get?_insert_self]

theorem get?_assemble_summary :
    (assemble sections outputs start).get? summaryKey = some (.str (summaryLine outputs)) :=
  Entries.get?_insert_self _ _ _

theorem nodup_keys_assemble : (assemble sections outputs start).keys.Nodup :=
  Entries.nodup_keys_insert
    (Entries.nodup_keys_insert (nodup_keys_kept outputs start sections) _ _) _ _

theorem filter_keys_assemble :
    (assemble sections outputs start).keys.filter (fun k => !isReserved k) =
      (kept outputs start sections).keys.filter fun k => !isReserved k := by
  have version : isReserved versionKey = true := by decide
  have summary : isReserved summaryKey = true := by decide
  have added (xs : Entries Json) (key : String) (value : Json) (reserved : isReserved key = true) :
      (xs.insert key value).keys.filter (fun k => !isReserved k) =
        xs.keys.filter fun k => !isReserved k := by
    rw [Entries.keys_insert]
    split
    · rfl
    · simp [reserved]
  unfold assemble
  rw [added _ _ _ summary, added _ _ _ version]
  rfl

theorem keys_assemble_of_unnamed (unnamed : ∀ s ∈ sections, isReserved s.outputKey = false) :
    (assemble sections outputs start).keys =
      (kept outputs start sections).keys ++ [versionKey, summaryKey] := by
  have absent {key : String} (reserved : isReserved key = true) :
      (kept outputs start sections).contains key = false := by
    have unnamed' : key ∉ sections.map Section.outputKey := by
      intro member
      obtain ⟨s, listed, rfl⟩ := List.mem_map.mp member
      rw [unnamed s listed] at reserved
      cases reserved
    simp [Entries.contains, get?_kept, unnamed']
  have version : (kept outputs start sections).contains versionKey = false := absent (by decide)
  have summary : (kept outputs start sections).contains summaryKey = false := absent (by decide)
  unfold assemble
  change Entries.keys (Entries.insert (Entries.insert (kept outputs start sections) _ _) _ _) = _
  rw [Entries.keys_insert_of_not_contains (by
      rw [Entries.contains_insert, summary]
      simp [versionKey_ne_summaryKey]),
    Entries.keys_insert_of_not_contains version, List.append_assoc]
  rfl

end Assemble

namespace Composer

theorem isSome_lastStored?_visits (p : Composer) (c : Context) (sections : List Section)
    (key : String) :
    (lastStored? (p.visits c sections) key).isSome = true ↔
      ∃ s ∈ sections, s.outputKey = key ∧
        ((s.activation c p.config.unknownCondition).activated = true ∨
          s.fallback.action.omitsKey = false) := by
  have stores {v : Visit} (member : v ∈ p.visits c sections) :
      v.outcome.stored?.isSome = true ↔
        ((v.step.activation c p.config.unknownCondition).activated = true ∨
          v.step.fallback.action.omitsKey = false) := by
    obtain ⟨c', same, visited⟩ := p.exists_visit member
    rw [← same.activation, visited, isSome_stored?_visit]
    simp [visit]
  rw [isSome_lastStored?]
  constructor
  · rintro ⟨v, member, same, stored⟩
    refine ⟨v.step, ?_, same, (stores member).mp stored⟩
    rw [← p.map_step_visits c sections]
    exact List.mem_map_of_mem member
  · rintro ⟨s, member, same, active⟩
    rw [← p.map_step_visits c sections] at member
    obtain ⟨v, visited, rfl⟩ := List.mem_map.mp member
    exact ⟨v, visited, same, (stores visited).mpr active⟩

theorem get?_outputs_start (p : Composer) (l : Loaded) (vs : List Visit) (key : String) :
    (vs.foldl Context.afterVisit (p.start l)).outputs.get? key = lastStored? vs key := by
  have begun : (p.start l).outputs.get? key = none := rfl
  rw [get?_outputs, begun, Option.or_none]

theorem get?_document (p : Composer) (l : Loaded) {key : String} (ordinary : isReserved key = false) :
    (p.composition l (p.visits (p.start l) p.order)).document.get? key =
      (lastStored? (p.visits (p.start l) p.order) key).map (withoutPrivate p.config.privateStart) := by
  unfold composition
  dsimp only
  rw [get?_assemble_of_not_isReserved _ _ _ ordinary, get?_kept, get?_outputs_start]
  split
  · rfl
  · next unnamed =>
      cases found : lastStored? (p.visits (p.start l) p.order) key with
      | none => rfl
      | some j =>
          have stored : (lastStored? (p.visits (p.start l) p.order) key).isSome = true := by
            rw [found]
            rfl
          obtain ⟨s, member, same, -⟩ :=
            (p.isSome_lastStored?_visits (p.start l) p.order key).mp stored
          exact absurd (List.mem_map.mpr ⟨s, member, same⟩) unnamed

theorem keys_document (p : Composer) (l : Loaded) :
    (p.composition l (p.visits (p.start l) p.order)).document.keys.filter (fun k => !isReserved k) =
      (p.order.map Section.outputKey).eraseDups.filter fun k => !isReserved k &&
        (p.composition l (p.visits (p.start l) p.order)).document.contains k := by
  have present (key : String) (ordinary : isReserved key = false) :
      (p.composition l (p.visits (p.start l) p.order)).document.contains key =
        ((p.visits (p.start l) p.order).foldl Context.afterVisit (p.start l)).outputs.contains key := by
    unfold Entries.contains
    rw [p.get?_document l ordinary, Option.isSome_map, get?_outputs_start]
  conv => lhs; rw [composition]
  dsimp only
  rw [filter_keys_assemble, keys_kept, List.filter_filter]
  apply List.filter_congr
  intro key member
  cases ordinary : isReserved key with
  | true => rfl
  | false => exact congrArg (true && ·) (present key ordinary).symm

/-- What a document holds. Under an ordinary key stands what the last section of the run to store
something under it stores, without private fields; such keys come as the run first names them. The
version and the summary are always there, and last where no section names them. -/
theorem document_of_run {config : Config} {registry : Registry} {p : Composer}
    (built : build config registry = .ok p) {l : Loaded} (subject : l.subject.isObject = true) :
    ∃ r, p.compose l = .ok r ∧ r.document.keys.Nodup ∧
      (∀ key, isReserved key = false → (r.document.contains key = true ↔
        ∃ s ∈ config.resolvedSections, s.outputKey = key ∧
          ((s.activation (p.start l) config.unknownCondition).activated = true ∨
            s.fallback.action.omitsKey = false))) ∧
      (∀ key shown, isReserved key = false → r.document.get? key = some shown →
        ∃ stored, lastStored? (p.visits (p.start l) (Order.resolve config.resolvedSections)) key =
            some stored ∧ ShownAs config.privateStart stored shown) ∧
      r.document.keys.filter (fun k => !isReserved k) =
        ((Order.resolve config.resolvedSections).map Section.outputKey).eraseDups.filter
          (fun k => !isReserved k && r.document.contains k) ∧
      r.document.get? versionKey = some (.str formatVersion) ∧
      (∃ outputs, (∀ key, Entries.get? outputs key =
          lastStored? (p.visits (p.start l) (Order.resolve config.resolvedSections)) key) ∧
        r.document.get? summaryKey = some (.str (summaryLine outputs))) ∧
      ((∀ s ∈ config.resolvedSections, isReserved s.outputKey = false) →
        ∃ front, r.document.keys = front ++ [versionKey, summaryKey]) := by
  obtain rfl := build_eq built
  set p : Composer := ⟨config, registry⟩
  have result : p.compose l = .ok (p.composition l (p.visits (p.start l) p.order)) := by
    rw [compose, p.observed_of_isObject subject]
  have order (s : Section) : s ∈ p.order ↔ s ∈ config.resolvedSections :=
    (Order.resolve_perm config.resolvedSections).mem_iff
  refine ⟨_, result, nodup_keys_assemble _ _ _, ?_, ?_, p.keys_document l,
    get?_assemble_version _ _ _, ⟨_, ?_, get?_assemble_summary _ _ _⟩, ?_⟩
  · intro key ordinary
    unfold Entries.contains
    rw [p.get?_document l ordinary, Option.isSome_map, isSome_lastStored?_visits]
    simp only [order]
    rfl
  · intro key shown ordinary found
    rw [p.get?_document l ordinary] at found
    obtain ⟨stored, last, rfl⟩ := Option.map_eq_some_iff.mp found
    exact ⟨stored, last, shownAs_withoutPrivate _ _⟩
  · exact fun key => p.get?_outputs_start l _ key
  · intro unnamed
    exact ⟨_, keys_assemble_of_unnamed _ _ _ fun s member => unnamed s ((order s).mp member)⟩

/-- Two sections that share a key. The one that runs last has no data and leaves the key out. -/
def sharing : Config where
  validateOnLoad := false
  sections := some [
    { id := "late", outputKey := "facts", source := .single "notes", condition := .dataExists none
      fallback := .omitted, dependsOn := ["early"] },
    { id := "early", outputKey := "facts", source := .single "caller" }]

theorem document_of_sharing :
    build sharing .builtin = .ok ⟨sharing, .builtin⟩ ∧
    (Loaded.mk (.obj []) [] 0).subject.isObject = true ∧
    ∃ r, compose ⟨sharing, .builtin⟩ ⟨.obj [], [], 0⟩ = .ok r ∧
      r.document.contains "facts" = true := by
  have built : build sharing .builtin = .ok ⟨sharing, .builtin⟩ := rfl
  have subject : (Loaded.mk (.obj []) [] 0).subject.isObject = true := rfl
  obtain ⟨r, result, -, present, -⟩ := document_of_run built subject
  refine ⟨built, subject, r, result, (present "facts" (by decide)).mpr ?_⟩
  exact ⟨_, List.mem_cons_of_mem _ List.mem_cons_self, rfl, Or.inl rfl⟩

end Composer

end Prompt
