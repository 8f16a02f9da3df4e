import Mathlib.Data.List.Range
import Prompt.Proofs.Order.Walk

/-!
# Who comes before whom in a run

The run holds every section once, and a section comes behind the first definition of each name that it
depends on, unless dependencies lead from that definition back to it
(`resolve_respects_dependencies`).
-/

namespace Prompt.Order
open Relation

def place (sections : List Section) (i : Nat) : Nat := (positions sections).idxOf i

theorem run_sound (sections : List Section) :
    ((List.range sections.length).foldl (visit sections sections.length) {}).Sound sections ∧
      ∀ i < sections.length,
        i ∈ ((List.range sections.length).foldl (visit sections sections.length) {}).left := by
  obtain ⟨sound, idle, -, entered⟩ := walk_all (List.range sections.length)
    (fun i member => List.mem_range.mp member) {} Walk.Sound.start (by simp [Walk.Pending])
  refine ⟨sound, fun i bound => ?_⟩
  by_contra absent
  exact idle i ⟨entered i (List.mem_range.mpr bound), absent⟩

theorem positions_perm (sections : List Section) :
    (positions sections).Perm (List.range sections.length) := by
  obtain ⟨sound, all⟩ := run_sound sections
  apply (List.reverse_perm _).trans
  apply (List.perm_ext_iff_of_nodup sound.left_nodup List.nodup_range).mpr
  intro i
  rw [List.mem_range]
  exact ⟨fun member => sound.entered_lt i (sound.left_subset member), all i⟩

theorem positions_nodup (sections : List Section) : (positions sections).Nodup :=
  (positions_perm sections).nodup_iff.mpr List.nodup_range

theorem mem_positions {sections : List Section} {i : Nat} :
    i ∈ positions sections ↔ i < sections.length := by
  rw [(positions_perm sections).mem_iff, List.mem_range]

theorem getElem?_filterMap_getElem? {α : Type*} (xs : List α) (is : List Nat)
    (bound : ∀ i ∈ is, i < xs.length) (k : Nat) :
    (is.filterMap fun i => xs[i]?)[k]? = is[k]?.bind fun i => xs[i]? := by
  induction is generalizing k with
  | nil => simp
  | cons i is ih =>
      have found := List.getElem?_eq_getElem (bound i List.mem_cons_self)
      rw [List.filterMap_cons_some found]
      cases k with
      | zero => simp [found]
      | succ k => simpa using ih (fun j member => bound j (List.mem_cons_of_mem _ member)) k

theorem filterMap_range_getElem? {α : Type*} (xs : List α) :
    (List.range xs.length).filterMap (fun i => xs[i]?) = xs := by
  apply List.ext_getElem?
  intro k
  rw [getElem?_filterMap_getElem? xs _ (fun i member => List.mem_range.mp member)]
  by_cases bound : k < xs.length
  · simp [bound]
  · simp [bound]

theorem resolve_perm (sections : List Section) : (resolve sections).Perm sections := by
  have perm := (positions_perm sections).filterMap fun i => sections[i]?
  rwa [filterMap_range_getElem?] at perm

theorem getElem?_resolve (sections : List Section) (k : Nat) :
    (resolve sections)[k]? = (positions sections)[k]?.bind fun i => sections[i]? :=
  getElem?_filterMap_getElem? sections _ (fun _ member => mem_positions.mp member) k

theorem getElem?_resolve_place {sections : List Section} {i : Nat} (bound : i < sections.length) :
    (resolve sections)[place sections i]? = sections[i]? := by
  rw [getElem?_resolve, place, List.getElem?_idxOf (mem_positions.mpr bound)]
  rfl

theorem place_lt_of_split {sections : List Section} {before after : List Nat} {i j : Nat}
    (split : positions sections = before ++ i :: after) (member : j ∈ before) :
    place sections j < place sections i := by
  have nodup := positions_nodup sections
  rw [split] at nodup
  have absent : i ∉ before := fun h =>
    List.disjoint_of_nodup_append nodup h List.mem_cons_self
  unfold place
  rw [split, List.idxOf_append_of_mem member, List.idxOf_append_of_notMem absent,
    List.idxOf_cons_self, Nat.add_zero]
  exact List.idxOf_lt_length_of_mem member

theorem place_lt_or_reaches {sections : List Section} {i j : Nat} (bound : i < sections.length)
    (depends : DependsOn sections i j) :
    place sections j < place sections i ∨ Reaches sections j i := by
  obtain ⟨sound, all⟩ := run_sound sections
  obtain ⟨after, before, split⟩ := List.append_of_mem (all i bound)
  have settled := sound.settled
  rw [split] at settled
  rcases settled.split depends with earlier | cyclic
  · have order : positions sections = before.reverse ++ i :: after.reverse := by
      simp [positions, split]
    exact Or.inl (place_lt_of_split order (List.mem_reverse.mpr earlier))
  · exact Or.inr cyclic

/-- The run is a permutation of the positions, and of the sections; a section comes behind the first
definition of a name that it depends on, unless dependencies lead from there back to the section. -/
theorem resolve_respects_dependencies (sections : List Section) :
    (positions sections).Perm (List.range sections.length) ∧
    (resolve sections).Perm sections ∧
    (∀ i < sections.length, (resolve sections)[place sections i]? = sections[i]?) ∧
    ∀ i s, sections[i]? = some s → ∀ name ∈ s.dependsOn, ∀ j, first? sections name = some j →
      place sections j < place sections i ∨ Reaches sections j i := by
  refine ⟨positions_perm sections, resolve_perm sections, fun i => getElem?_resolve_place, ?_⟩
  intro i s found name member j first
  have bound : i < sections.length := (List.getElem?_eq_some_iff.mp found).1
  exact place_lt_or_reaches bound ⟨s, found, name, member, first⟩

/-- A cycle is cut, and what touches it on one side only is still in order. -/
example : (resolve [
    { id := "behind", outputKey := "", source := .single "", dependsOn := ["left"] },
    { id := "left", outputKey := "", source := .single "", dependsOn := ["right", "before"] },
    { id := "right", outputKey := "", source := .single "", dependsOn := ["left"] },
    { id := "before", outputKey := "", source := .single "" }]).map Section.id =
    ["right", "before", "left", "behind"] := by decide

end Prompt.Order
