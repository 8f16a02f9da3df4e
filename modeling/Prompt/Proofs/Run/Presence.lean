import Prompt.Proofs.Table
import Prompt.Run.Activation

/-!
# Presence and value

Whether there are data under a name and what they are is asked in two places. The answers agree for every name
of a part of the context (`hasData_eq_isPresent`): a section that waits for its own sources is active exactly
when its input holds something under one of their names (`activation_of_inputs`).
-/

namespace Prompt

/-- Neither `null` nor an empty array. -/
def Json.isPresent : Json → Bool
  | .null => false
  | .arr items => !items.isEmpty
  | _ => true

theorem Json.isPresent_iff {j : Json} : j.isPresent = true ↔ j ≠ .null ∧ j ≠ .arr [] := by
  cases j with
  | arr items => cases items <;> simp [isPresent]
  | _ => simp [isPresent]

namespace Source

/-- What the input of a section has under one of its names. A single name has the whole input. -/
def entry? (source : Source) (input : Json) (name : String) : Option Json :=
  match source with
  | .single _ => some input
  | .several _ => input.field? name

def holds (source : Source) (input : Json) (name : String) : Bool :=
  (source.entry? input name).any Json.isPresent

theorem holds_iff {source : Source} {input : Json} {name : String} :
    source.holds input name = true ↔
      ∃ j, source.entry? input name = some j ∧ j ≠ .null ∧ j ≠ .arr [] := by
  unfold holds
  cases source.entry? input name <;> simp [Json.isPresent_iff]

theorem ne_wholeContext_of_mem {source : Source} (part : source.isWhole = false) {name : String}
    (listed : name ∈ source.names) : name ≠ wholeContext := by
  rintro rfl
  exact Bool.eq_false_iff.mp part (List.any_eq_true.mpr ⟨wholeContext, listed, beq_iff_eq.mpr rfl⟩)

end Source

namespace Context

theorem ne_null_of_source? {c : Context} {name : String} {j : Json} (found : c.source? name = some j) :
    j ≠ .null := by
  have kept : (!j.isNull) = true := (Option.mem_filter_iff.mp (Option.mem_def.mpr found)).2
  rintro rfl
  cases kept

theorem isPresent_of_derivedGrouping? {c : Context} {name : String} {j : Json}
    (derived : c.derivedGrouping? name = some j) : j.isPresent = true := by
  unfold derivedGrouping? at derived
  split at derived
  · cases derived
  · split at derived
    · cases derived
    · obtain ⟨id, -, rfl⟩ := Option.map_eq_some_iff.mp derived
      rfl

variable (c : Context)

theorem hasData_eq_isPresent {name : String} (part : name ≠ wholeContext) :
    c.hasData name = (c.inputValue name).isPresent := by
  unfold hasData inputValue
  rw [if_neg part]
  cases found : c.source? name with
  | some j =>
      have given := ne_null_of_source? found
      cases j with
      | null => exact absurd rfl given
      | _ => rfl
  | none =>
      cases derived : c.derivedGrouping? name with
      | none => rfl
      | some j => exact (isPresent_of_derivedGrouping? derived).symm

theorem entry?_resolveInput {source : Source} (part : source.isWhole = false) {name : String}
    (listed : name ∈ source.names) :
    source.entry? (c.resolveInput source) name = some (c.inputValue name) := by
  simp only [resolveInput, part, Bool.false_eq_true, if_false]
  cases source with
  | single own =>
      rw [List.mem_singleton.mp listed]
      rfl
  | several names =>
      change Entries.get? (Entries.insertAll [] (names.map fun n => (n, c.inputValue n))) name = _
      rw [Entries.get?_insertAll_map_pair]
      exact if_pos listed

theorem hasData_eq_holds {source : Source} (part : source.isWhole = false) {name : String}
    (listed : name ∈ source.names) : c.hasData name = source.holds (c.resolveInput source) name := by
  rw [Source.holds, c.entry?_resolveInput part listed,
    c.hasData_eq_isPresent (Source.ne_wholeContext_of_mem part listed)]
  rfl

end Context

namespace Section

/-- A section that waits for its own sources is active exactly when its input has a value that is neither
`null` nor an empty array under one of their names. It tells the names of all such values, or else that
there is none under any of its names. -/
theorem activation_of_inputs {s : Section} (waits : s.condition = .dataExists none)
    (part : s.source.isWhole = false) (c : Context) (policy : UnknownPolicy) :
    ((s.activation c policy).activated = true ↔
      ∃ name ∈ s.source.names, ∃ j, s.source.entry? (c.resolveInput s.source) name = some j ∧
        j ≠ .null ∧ j ≠ .arr []) ∧
    (s.activation c policy).reason =
      if (s.activation c policy).activated then
        .dataFound (s.source.names.filter (s.source.holds (c.resolveInput s.source)))
      else .dataMissing s.source.names := by
  have agree : s.source.names.filter c.hasData =
      s.source.names.filter (s.source.holds (c.resolveInput s.source)) :=
    List.filter_congr fun name listed => c.hasData_eq_holds part listed
  unfold activation
  rw [waits]
  simp only [Option.getD_none, ← Source.holds_iff]
  cases found : s.source.names.filter c.hasData with
  | nil =>
      have without := List.filter_eq_nil_iff.mp found
      have nothing := List.filter_eq_nil_iff.mp (agree.symm.trans found)
      have all : s.source.names.filter (fun name => !c.hasData name) = s.source.names :=
        List.filter_eq_self.mpr fun name listed => by simp [without name listed]
      refine ⟨iff_of_false Bool.false_ne_true ?_, congrArg Reason.dataMissing all⟩
      rintro ⟨name, listed, held⟩
      exact nothing name listed held
  | cons name rest =>
      rw [← agree, found]
      have first : name ∈ s.source.names.filter (s.source.holds (c.resolveInput s.source)) := by
        simp [← agree, found]
      exact ⟨iff_of_true rfl ⟨name, List.mem_filter.mp first⟩, rfl⟩

/-- A grouping that is known by its id, sources that hold nothing, and one that is `false`. -/
def clubTalk : Section where
  id := "club_talk"
  outputKey := "clubTalk"
  source := .several ["subject.tags", "subject.club", "goals", "subject.mood", "notes"]
  condition := .dataExists none

def clubMember : Context where
  loaded :=
    { subject := .obj [("clubId", .str "chess"), ("tags", .arr []), ("mood", .null)]
      fragments := [("notes", .bool false)] }
  subjectKey := "caller"

theorem activation_of_clubTalk :
    clubTalk.condition = .dataExists none ∧ clubTalk.source.isWhole = false ∧
      (clubTalk.activation clubMember .failClosed).activated = true ∧
      (clubTalk.activation clubMember .failClosed).reason = .dataFound ["subject.club", "notes"] := by
  have part : clubTalk.source.isWhole = false := by decide
  obtain ⟨active, reason⟩ := activation_of_inputs (s := clubTalk) rfl part clubMember .failClosed
  have activated := active.mpr ⟨"notes", by simp [clubTalk, Source.names], .bool false, rfl, by simp, by simp⟩
  have held : clubTalk.source.names.filter
      (clubTalk.source.holds (clubMember.resolveInput clubTalk.source)) = ["subject.club", "notes"] := rfl
  rw [activated, if_pos rfl, held] at reason
  exact ⟨rfl, part, activated, reason⟩

end Section

end Prompt
