import Mathlib.Data.List.Induction
import Mathlib.Data.List.Nodup
import Mathlib.Data.Set.Function

/-!
# Lists without their repetitions

What `List.eraseDups` keeps when the list is read from its end, and when what is listed is renamed without
confusion; and lists taken apart by keys without repetitions.
-/

namespace Prompt

variable {α β : Type}

section Repeats
variable [BEq α] [LawfulBEq α]

theorem eraseDups_append_singleton (xs : List α) (x : α) :
    (xs ++ [x]).eraseDups = if x ∈ xs then xs.eraseDups else xs.eraseDups ++ [x] := by
  rw [List.eraseDups_append]
  by_cases before : x ∈ xs <;> simp [List.removeAll, before, List.eraseDups_cons]

theorem nodup_eraseDups (xs : List α) : xs.eraseDups.Nodup := by
  induction xs using List.reverseRecOn with
  | nil => exact List.nodup_nil
  | append_singleton xs x ih =>
      rw [eraseDups_append_singleton]
      split
      · exact ih
      · next fresh =>
          rw [← List.concat_eq_append]
          exact ih.concat fun listed => fresh (List.mem_eraseDups.1 listed)

theorem eraseDups_eq_nil_iff {xs : List α} : xs.eraseDups = [] ↔ xs = [] := by
  simp only [List.eq_nil_iff_forall_not_mem, List.mem_eraseDups]

theorem eraseDups_map [BEq β] [LawfulBEq β] {f : α → β} {xs : List α} (apart : Set.InjOn f {x | x ∈ xs}) :
    (xs.map f).eraseDups = xs.eraseDups.map f := by
  induction xs using List.reverseRecOn with
  | nil => rfl
  | append_singleton xs x ih =>
      have here : x ∈ xs ++ [x] := List.mem_append_right xs List.mem_cons_self
      have known : f x ∈ xs.map f ↔ x ∈ xs := by
        constructor
        · intro listed
          obtain ⟨y, member, same⟩ := List.mem_map.1 listed
          exact apart (List.mem_append_left _ member) here same ▸ member
        · exact List.mem_map_of_mem
      rw [List.map_append, List.map_singleton, eraseDups_append_singleton, eraseDups_append_singleton,
        ih (apart.mono fun y => List.mem_append_left _)]
      by_cases before : x ∈ xs
      · rw [if_pos before, if_pos (known.2 before)]
      · rw [if_neg before, if_neg (mt known.1 before), List.map_append, List.map_singleton]

end Repeats

theorem eq_of_map_eq {f : α → β} {s : Set α} (apart : s.InjOn f) {xs ys : List α} (inside : ∀ x ∈ xs, x ∈ s)
    (inside' : ∀ y ∈ ys, y ∈ s) (same : xs.map f = ys.map f) : xs = ys := by
  induction xs generalizing ys with
  | nil => exact (List.map_eq_nil_iff.1 same.symm).symm
  | cons x xs ih =>
      cases ys with
      | nil => cases same
      | cons y ys =>
          rw [List.forall_mem_cons] at inside inside'
          rw [List.map_cons, List.map_cons, List.cons.injEq] at same
          rw [apart inside.1 inside'.1 same.1, ih inside.2 inside'.2 same.2]

end Prompt
