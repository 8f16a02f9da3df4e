import Mathlib.Data.Int.Order.Basic
import Mathlib.Data.List.Basic
import Mathlib.Order.Basic

/-!
# Sorting by a whole number

Sorting puts what a list holds into ascending order and leaves what is level in the order of the list
(`SortedBy`). So the first item of some kind in the sorted list is the foremost of its kind: none of them
is lower, and of those that are level it stands first (`SortedBy.foremost_of_find?`).
-/

namespace Prompt

variable {α : Type}

structure SortedBy (key : α → Int) (xs ys : List α) : Prop where
  perm : ys.Perm xs
  ascending : ys.Pairwise fun x y => key x ≤ key y
  level : ∀ k, ys.filter (fun x => key x == k) = xs.filter fun x => key x == k

/-- The first of those of its kind of which none is lower. -/
def Foremost (key : α → Int) (kind : α → Prop) (xs : List α) (x : α) : Prop :=
  ∃ before after, xs = before ++ x :: after ∧ kind x ∧
    (∀ y ∈ before, kind y → key x < key y) ∧ ∀ y ∈ after, kind y → key x ≤ key y

/-- Where an item stands in a filtered list tells where it stands in the list. -/
theorem exists_split_of_filter {p : α → Bool} {xs before after : List α} {x : α}
    (split : xs.filter p = before ++ x :: after) : ∃ front back, xs = front ++ x :: back ∧
      front.filter p = before ∧ p x = true ∧ back.filter p = after := by
  obtain ⟨front, rest, rfl, first, second⟩ := List.filter_eq_append_iff.mp split
  obtain ⟨between, back, rfl, others, among, last⟩ := List.filter_eq_cons_iff.mp second
  refine ⟨front ++ between, back, (List.append_assoc ..).symm, ?_, among, last⟩
  rw [List.filter_append, first, List.filter_eq_nil_iff.mpr others, List.append_nil]

/-- The foremost of a part of a list that is of one kind. -/
theorem Foremost.of_filter {key : α → Int} {kind : α → Prop} {xs : List α} {x : α} {p : α → Bool}
    (foremost : Foremost key kind (xs.filter p) x) : Foremost key (fun y => p y = true ∧ kind y) xs x := by
  obtain ⟨before, after, split, own, earlier, later⟩ := foremost
  obtain ⟨front, back, rfl, rfl, among, rfl⟩ := exists_split_of_filter split
  refine ⟨front, back, rfl, ⟨among, own⟩, ?_, ?_⟩
  · rintro y member ⟨listed, kind⟩
    exact earlier y (List.mem_filter.mpr ⟨member, listed⟩) kind
  · rintro y member ⟨listed, kind⟩
    exact later y (List.mem_filter.mpr ⟨member, listed⟩) kind

theorem sortedBy_mergeSort (key : α → Int) (xs : List α) :
    SortedBy key xs (xs.mergeSort fun x y => key x ≤ key y) := by
  have perm := List.mergeSort_perm xs fun x y => decide (key x ≤ key y)
  have trans (x y z : α) (first : decide (key x ≤ key y) = true) (second : decide (key y ≤ key z) = true) :
      decide (key x ≤ key z) = true :=
    decide_eq_true (le_trans (of_decide_eq_true first) (of_decide_eq_true second))
  have total (x y : α) : (decide (key x ≤ key y) || decide (key y ≤ key x)) = true := by
    simpa using Int.le_total (key x) (key y)
  refine ⟨perm, ?_, fun k => ?_⟩
  · exact (List.pairwise_mergeSort trans total xs).imp of_decide_eq_true
  · have same : ∀ x ∈ xs.filter (fun x => key x == k), key x = k := fun x member =>
      beq_iff_eq.mp (List.mem_filter.mp member).2
    -- What is level is sorted already, so that sorting leaves it in order.
    have kept : (xs.filter fun x => key x == k).Sublist (xs.mergeSort fun x y => key x ≤ key y) := by
      refine List.sublist_mergeSort trans total ?_ List.filter_sublist
      refine List.pairwise_of_forall_mem_list fun x member y member' => decide_eq_true ?_
      exact le_of_eq ((same x member).trans (same y member').symm)
    have inside := kept.filter fun x => key x == k
    rw [List.filter_filter] at inside
    simp only [Bool.and_self] at inside
    exact (inside.eq_of_length (perm.filter _).length_eq.symm).symm

namespace SortedBy
variable {key : α → Int} {xs ys : List α} (sorted : SortedBy key xs ys)
include sorted

theorem foremost_of_find? {p : α → Bool} {x : α} (found : ys.find? p = some x) :
    Foremost key (fun y => p y = true) xs x := by
  obtain ⟨own, lower, higher, rfl, others⟩ := List.find?_eq_some_iff_append.mp found
  have least : ∀ y ∈ xs, p y = true → key x ≤ key y := by
    intro y member kind
    rcases List.mem_append.mp (sorted.perm.mem_iff.mpr member) with earlier | later
    · exact absurd kind (by simpa using others y earlier)
    · rcases List.mem_cons.mp later with rfl | later
      · exact le_rfl
      · exact List.rel_of_pairwise_cons (List.pairwise_append.mp sorted.ascending).2.1 later
  have same := congrArg (List.filter p) (sorted.level (key x))
  have none : lower.filter (fun y => p y && key y == key x) = [] :=
    List.filter_eq_nil_iff.mpr fun y earlier level => by simp_all
  rw [List.filter_filter, List.filter_filter, List.filter_append, none, List.nil_append,
    List.filter_cons_of_pos (by simp [own])] at same
  obtain ⟨before, after, rfl, fresh, -⟩ := List.filter_eq_cons_iff.mp same.symm
  refine ⟨before, after, rfl, own, fun y member kind => ?_, fun y member kind => ?_⟩
  · refine lt_of_le_of_ne (least y (List.mem_append_left _ member) kind) fun level => ?_
    exact fresh y member (by simp [kind, level])
  · exact least y (List.mem_append_right _ (List.mem_cons_of_mem _ member)) kind

end SortedBy

end Prompt
