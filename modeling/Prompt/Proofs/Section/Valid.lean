import Mathlib.Data.List.Nodup
import Prompt.Section.Check

/-!
# Which lists pass the checks

A report is valid when all that it holds are warnings. Of a list that means that no id is repeated, that
names and parameters are there, that no key is reserved, and that nothing depends on itself
(`isValid_check`).
-/

namespace Prompt.Section

structure Valid (sections : List Section) : Prop where
  ids_nodup : (sections.map Section.id).Nodup
  unreserved : ∀ s ∈ sections, s.outputKey ≠ versionKey ∧ s.outputKey ≠ summaryKey
  named : ∀ s ∈ sections, ∀ name ∈ s.dependsOn, name ∈ sections.map Section.id
  parameters : ∀ s ∈ sections, s.condition.missingParameter? = none
  acyclic : Cycle.members sections = []

def Harmless (found : List Issue) : Prop := ∀ i ∈ found, i.severity = .warning

theorem harmless_append {xs ys : List Issue} : Harmless (xs ++ ys) ↔ Harmless xs ∧ Harmless ys :=
  List.forall_mem_append

theorem isValid_iff_harmless (r : Report) : r.isValid = true ↔ Harmless r.issues := by
  unfold Report.isValid Report.errors Report.ofSeverity Harmless
  rw [List.isEmpty_iff, List.filter_eq_nil_iff]
  apply forall₂_congr
  intro i _
  cases i.severity <;> simp

/-! ### Rule by rule -/

theorem harmless_repeatedIds (seen : List String) (sections : List Section) :
    Harmless (repeatedIds seen sections) ↔
      (sections.map Section.id).Nodup ∧ ∀ s ∈ sections, s.id ∉ seen := by
  induction sections generalizing seen with
  | nil => simp [repeatedIds, Harmless]
  | cons s rest ih =>
      have first : Harmless (if seen.contains s.id then [.duplicateId s.id] else []) ↔ s.id ∉ seen := by
        by_cases member : s.id ∈ seen <;> simp [Harmless, Issue.severity, member]
      rw [repeatedIds, harmless_append, first, ih, List.map_cons, List.nodup_cons, List.forall_mem_cons]
      simp only [List.mem_cons, not_or, List.mem_map, not_exists, not_and]
      constructor
      · rintro ⟨fresh, nodup, apart⟩
        exact ⟨⟨fun other member => (apart other member).1, nodup⟩, fresh,
          fun other member => (apart other member).2⟩
      · rintro ⟨⟨apart, nodup⟩, fresh, later⟩
        exact ⟨fresh, nodup, fun other member => ⟨apart other member, later other member⟩⟩

theorem harmless_sharedKeys (sections : List Section) : Harmless (sharedKeys sections) := by
  intro i found
  obtain ⟨key, -, rfl⟩ := List.mem_map.mp found
  rfl

theorem harmless_reservedKey (s : Section) :
    Harmless (reservedKey s) ↔ s.outputKey ≠ versionKey ∧ s.outputKey ≠ summaryKey := by
  unfold reservedKey
  split
  · next reserved =>
      simp only [Harmless, List.mem_singleton, forall_eq, Issue.severity, reduceCtorEq, false_iff]
      tauto
  · next ordinary =>
      simp only [Harmless, List.not_mem_nil, false_implies, implies_true, true_iff]
      tauto

theorem harmless_danglingNames (sections : List Section) (s : Section) :
    Harmless (danglingNames sections s) ↔
      ∀ name ∈ s.dependsOn, name ∈ sections.map Section.id := by
  unfold danglingNames Harmless
  rw [List.forall_mem_map]
  simp [Issue.severity]

theorem harmless_unknownTransforms (registry : Registry) (s : Section) :
    Harmless (unknownTransforms registry s) := by
  intro i found
  obtain ⟨name, -, rfl⟩ := List.mem_map.mp found
  rfl

theorem harmless_unrecognized (s : Section) : Harmless (unrecognized s) := by
  unfold unrecognized
  split <;> simp [Harmless, Issue.severity]

theorem harmless_emptyParameter (s : Section) :
    Harmless (emptyParameter s) ↔ s.condition.missingParameter? = none := by
  unfold emptyParameter
  cases s.condition.missingParameter? <;> simp [Harmless, Issue.severity]

theorem harmless_cycles (sections : List Section) :
    Harmless (cycles sections) ↔ Cycle.members sections = [] := by
  unfold cycles
  cases Cycle.members sections <;> simp [Harmless, Issue.severity]

theorem harmless_issues (sections : List Section) (registry : Registry) (s : Section) :
    Harmless (issues sections registry s) ↔
      (s.outputKey ≠ versionKey ∧ s.outputKey ≠ summaryKey) ∧
      (∀ name ∈ s.dependsOn, name ∈ sections.map Section.id) ∧
      s.condition.missingParameter? = none := by
  simp only [issues, harmless_append, harmless_reservedKey, harmless_danglingNames,
    harmless_unknownTransforms, harmless_unrecognized, harmless_emptyParameter, and_true, and_assoc]

theorem isValid_check (sections : List Section) (registry : Registry) :
    (check sections registry).isValid = true ↔ Valid sections := by
  have each : Harmless (sections.flatMap (issues sections registry)) ↔
      ∀ s ∈ sections, Harmless (issues sections registry s) := List.forall_mem_flatMap
  rw [isValid_iff_harmless]
  unfold check
  simp only [harmless_append, harmless_repeatedIds, harmless_sharedKeys, harmless_cycles, each,
    harmless_issues, List.not_mem_nil, not_false_eq_true, implies_true, and_true]
  constructor
  · rintro ⟨⟨nodup, rules⟩, acyclic⟩
    exact ⟨nodup, fun s member => (rules s member).1, fun s member => (rules s member).2.1,
      fun s member => (rules s member).2.2, acyclic⟩
  · rintro ⟨nodup, unreserved, named, parameters, acyclic⟩
    exact ⟨⟨nodup, fun s member => ⟨unreserved s member, named s member, parameters s member⟩⟩, acyclic⟩

/-- Of the rules only the one on cycles finds a cycle. -/
theorem cycle_mem_check {sections : List Section} {registry : Registry} {ids : List String} :
    .cycle ids ∈ (check sections registry).issues ↔ .cycle ids ∈ cycles sections := by
  have repeated (seen : List String) : .cycle ids ∉ repeatedIds seen sections := by
    induction sections generalizing seen with
    | nil => exact List.not_mem_nil
    | cons s rest ih =>
        rw [repeatedIds, List.mem_append, not_or]
        exact ⟨by split <;> simp, ih _⟩
  have shared : .cycle ids ∉ sharedKeys sections := by simp [sharedKeys]
  have each (s : Section) : .cycle ids ∉ issues sections registry s := by
    simp only [issues, List.mem_append, not_or]
    refine ⟨⟨⟨⟨?_, ?_⟩, ?_⟩, ?_⟩, ?_⟩
    · unfold reservedKey
      split <;> simp
    · simp [danglingNames]
    · simp [unknownTransforms]
    · unfold unrecognized
      split <;> simp
    · simp [emptyParameter]
  simp [check, repeated, shared, each]

theorem exists_cycle_iff (sections : List Section) (registry : Registry) :
    (∃ ids, .cycle ids ∈ (check sections registry).issues) ↔ Cycle.members sections ≠ [] := by
  simp only [cycle_mem_check]
  unfold cycles
  cases Cycle.members sections <;> simp

end Prompt.Section
