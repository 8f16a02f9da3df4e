import Prompt.Run.Context

/-!
Transforms by name, and chains of them. A transform turns the input of a section into its output and may
look at the context; it changes nothing else.
-/

namespace Prompt

abbrev Transform := Context → Json → Json

abbrev Registry := Entries Transform

structure ChainResult where
  value : Json
  missing : List String

namespace Registry

def names (r : Registry) : List String :=
  (Entries.keys r).mergeSort fun a b => decide (a ≤ b)

/-- Applies the named transforms from left to right. A name that is not registered is noted and passes
the value on. -/
def apply (r : Registry) (c : Context) (names : List String) (input : Json) : ChainResult :=
  match names with
  | [] => ⟨input, []⟩
  | n :: rest =>
    match Entries.get? r n with
    | some t => r.apply c rest (t c input)
    | none =>
      let result := r.apply c rest input
      ⟨result.value, n :: result.missing⟩

/-- The value of a chain is that of its registered names, one after the other. -/
theorem value_apply (r : Registry) (c : Context) (names : List String) (input : Json) :
    (r.apply c names input).value =
      (names.filterMap (Entries.get? r)).foldl (fun j t => t c j) input := by
  induction names generalizing input with
  | nil => rfl
  | cons n rest ih => cases h : Entries.get? r n <;> simp [apply, h, ih]

theorem missing_apply (r : Registry) (c : Context) (names : List String) (input : Json) :
    (r.apply c names input).missing = names.filter fun n => !Entries.contains r n := by
  induction names generalizing input with
  | nil => rfl
  | cons n rest ih =>
      cases h : Entries.get? r n <;> simp [apply, h, ih, Entries.contains]

end Registry

end Prompt
