import Mathlib.Data.List.Perm.Subperm
import Mathlib.Data.List.Nodup
import Mathlib.Logic.Relation
import Prompt.Section.Order

/-!
# What a walk through the dependencies preserves

A position that has been entered and not yet left is pending. A visit adds to both records, and pends
what was pending before it (`Grown`); it keeps the records in order (`Sound`), as long as every pending
position leads to the one that is visited. `walk_all` is the run from the empty records.
-/

namespace Prompt.Order
open Relation

variable {sections : List Section}

/-- A section depends on the first definition of each name that it gives. -/
def DependsOn (sections : List Section) (i j : Nat) : Prop :=
  ∃ s, sections[i]? = some s ∧ ∃ name ∈ s.dependsOn, first? sections name = some j

abbrev Reaches (sections : List Section) : Nat → Nat → Prop := ReflTransGen (DependsOn sections)

theorem first?_lt {name : String} {i : Nat} (h : first? sections name = some i) :
    i < sections.length := (List.findIdx?_eq_some_iff_getElem.mp h).1

theorem mem_dependencies {i j : Nat} : j ∈ dependencies sections i ↔ DependsOn sections i j := by
  unfold dependencies DependsOn
  cases sections[i]? <;> simp

theorem DependsOn.lt {i j : Nat} (h : DependsOn sections i j) : j < sections.length := by
  obtain ⟨s, -, name, -, found⟩ := h
  exact first?_lt found

/-- Positions in reverse order of the run. Each one comes after those that it depends on, except where
these lead back to it. -/
def Settled (sections : List Section) : List Nat → Prop
  | [] => True
  | i :: before =>
      (∀ j, DependsOn sections i j → j ∈ before ∨ Reaches sections j i) ∧ Settled sections before

theorem Settled.split {after before : List Nat} {i j : Nat}
    (settled : Settled sections (after ++ i :: before)) (depends : DependsOn sections i j) :
    j ∈ before ∨ Reaches sections j i := by
  induction after with
  | nil => exact settled.1 j depends
  | cons k after ih => exact ih settled.2

namespace Walk

def Pending (w : Walk) (i : Nat) : Prop := i ∈ w.entered ∧ i ∉ w.left

structure Sound (sections : List Section) (w : Walk) : Prop where
  entered_nodup : w.entered.Nodup
  entered_lt : ∀ i ∈ w.entered, i < sections.length
  left_nodup : w.left.Nodup
  left_subset : w.left ⊆ w.entered
  settled : Settled sections w.left

/-- The records have only grown, and the same positions are pending. -/
structure Grown (w w' : Walk) : Prop where
  entered : w.entered <:+ w'.entered
  left : w.left <:+ w'.left
  pending : ∀ i, w'.Pending i ↔ w.Pending i

theorem Grown.refl (w : Walk) : Grown w w :=
  ⟨List.suffix_refl _, List.suffix_refl _, fun _ => Iff.rfl⟩

theorem Grown.trans {w w' w'' : Walk} (h : Grown w w') (h' : Grown w' w'') : Grown w w'' :=
  ⟨h.entered.trans h'.entered, h.left.trans h'.left,
    fun i => (h'.pending i).trans (h.pending i)⟩

theorem Sound.start : Sound sections {} :=
  ⟨List.nodup_nil, by simp, List.nodup_nil, List.nil_subset _, trivial⟩

theorem Sound.subperm_range {w : Walk} (sound : w.Sound sections) :
    w.entered.Subperm (List.range sections.length) :=
  sound.entered_nodup.subperm fun i member => List.mem_range.mpr (sound.entered_lt i member)

theorem Sound.mem_entered {w : Walk} (sound : w.Sound sections)
    (full : sections.length ≤ w.entered.length) {i : Nat} (bound : i < sections.length) :
    i ∈ w.entered := by
  have perm := sound.subperm_range.perm_of_length_le (by simpa using full)
  exact perm.mem_iff.mpr (List.mem_range.mpr bound)

theorem Sound.enter {w : Walk} {i : Nat} (sound : w.Sound sections) (fresh : i ∉ w.entered)
    (bound : i < sections.length) : Sound sections { w with entered := i :: w.entered } where
  entered_nodup := List.nodup_cons.mpr ⟨fresh, sound.entered_nodup⟩
  entered_lt := by
    intro j member
    rcases List.mem_cons.mp member with rfl | member
    · exact bound
    · exact sound.entered_lt j member
  left_nodup := sound.left_nodup
  left_subset := fun _ member => List.mem_cons_of_mem _ (sound.left_subset member)
  settled := sound.settled

theorem pending_enter {w : Walk} {i j : Nat} (sound : w.Sound sections) (fresh : i ∉ w.entered) :
    Pending { w with entered := i :: w.entered } j ↔ w.Pending j ∨ j = i := by
  have notLeft : i ∉ w.left := fun member => fresh (sound.left_subset member)
  simp only [Pending, List.mem_cons]
  constructor
  · rintro ⟨rfl | member, absent⟩
    · exact Or.inr rfl
    · exact Or.inl ⟨member, absent⟩
  · rintro (⟨member, absent⟩ | rfl)
    · exact ⟨Or.inr member, absent⟩
    · exact ⟨Or.inl rfl, notLeft⟩

/-- Leaving a pending position whose dependencies have all been entered. What is still pending of them
has to lead back. -/
theorem Sound.leave {w : Walk} {i : Nat} (sound : w.Sound sections) (pending : w.Pending i)
    (entered : ∀ j, DependsOn sections i j → j ∈ w.entered)
    (above : ∀ j, w.Pending j → Reaches sections j i) :
    Sound sections { w with left := i :: w.left } where
  entered_nodup := sound.entered_nodup
  entered_lt := sound.entered_lt
  left_nodup := List.nodup_cons.mpr ⟨pending.2, sound.left_nodup⟩
  left_subset := List.cons_subset.mpr ⟨pending.1, sound.left_subset⟩
  settled := by
    refine ⟨fun j depends => ?_, sound.settled⟩
    by_cases member : j ∈ w.left
    · exact Or.inl member
    · exact Or.inr (above j ⟨entered j depends, member⟩)

end Walk

structure Visited (sections : List Section) (w w' : Walk) (i : Nat) : Prop where
  sound : w'.Sound sections
  grown : w.Grown w'
  entered : i ∈ w'.entered

theorem Visited.of_entered {w : Walk} {i : Nat} (sound : w.Sound sections) (entered : i ∈ w.entered) :
    Visited sections w w i := ⟨sound, Walk.Grown.refl w, entered⟩

theorem foldl_visit {fuel i : Nat}
    (step : ∀ (w : Walk) (j : Nat), w.Sound sections → j < sections.length →
      sections.length ≤ fuel + w.entered.length → (∀ k, w.Pending k → Reaches sections k j) →
      Visited sections w (visit sections fuel w j) j)
    (targets : List Nat) (depends : ∀ j ∈ targets, DependsOn sections i j) (w : Walk)
    (sound : w.Sound sections) (enough : sections.length ≤ fuel + w.entered.length)
    (above : ∀ k, w.Pending k → Reaches sections k i) :
    (targets.foldl (visit sections fuel) w).Sound sections ∧
      w.Grown (targets.foldl (visit sections fuel) w) ∧
      ∀ j ∈ targets, j ∈ (targets.foldl (visit sections fuel) w).entered := by
  induction targets generalizing w with
  | nil => exact ⟨sound, Walk.Grown.refl w, by simp⟩
  | cons j targets ih =>
      have edge := depends j List.mem_cons_self
      have first := step w j sound edge.lt enough fun k pending => (above k pending).tail edge
      have longer := first.grown.entered.length_le
      obtain ⟨sound', grown, entered⟩ := ih (fun k member => depends k (List.mem_cons_of_mem _ member))
        (visit sections fuel w j) first.sound (by omega)
        fun k pending => above k ((first.grown.pending k).mp pending)
      refine ⟨sound', first.grown.trans grown, fun k member => ?_⟩
      rcases List.mem_cons.mp member with rfl | member
      · exact grown.entered.subset first.entered
      · exact entered k member

theorem visit_visited (fuel : Nat) (w : Walk) (i : Nat) (sound : w.Sound sections)
    (bound : i < sections.length) (enough : sections.length ≤ fuel + w.entered.length)
    (above : ∀ j, w.Pending j → Reaches sections j i) :
    Visited sections w (visit sections fuel w i) i := by
  induction fuel generalizing w i with
  | zero => exact .of_entered sound (sound.mem_entered (by omega) bound)
  | succ fuel ih =>
      by_cases fresh : i ∈ w.entered
      · simpa only [visit, fresh, if_true] using Visited.of_entered sound fresh
      · simp only [visit, fresh, if_false]
        have pend (j : Nat) := Walk.pending_enter (j := j) sound fresh
        have leads : ∀ j, Walk.Pending { w with entered := i :: w.entered } j →
            Reaches sections j i := by
          intro j pending
          rcases (pend j).mp pending with pending | rfl
          · exact above j pending
          · exact ReflTransGen.refl
        obtain ⟨inner, grown, entered⟩ := foldl_visit ih (dependencies sections i)
          (fun j member => mem_dependencies.mp member) { w with entered := i :: w.entered }
          (sound.enter fresh bound) (by simp only [List.length_cons]; omega) leads
        generalize (dependencies sections i).foldl (visit sections fuel)
          { w with entered := i :: w.entered } = w' at inner grown entered ⊢
        have pending : w'.Pending i := (grown.pending i).mpr ((pend i).mpr (Or.inr rfl))
        refine ⟨inner.leave pending (fun j depends => entered j (mem_dependencies.mpr depends))
          fun j h => leads j ((grown.pending j).mp h), ?_, pending.1⟩
        refine ⟨(List.suffix_cons i w.entered).trans grown.entered,
          grown.left.trans (List.suffix_cons i w'.left), fun j => ?_⟩
        have same : w'.Pending j ↔ w.Pending j ∨ j = i := (grown.pending j).trans (pend j)
        by_cases equal : j = i
        · subst equal
          exact ⟨fun h => absurd List.mem_cons_self h.2, fun h => absurd h.1 fresh⟩
        · simp only [equal, or_false] at same
          rw [← same]
          simp [Walk.Pending, equal]

/-- The visits of a run, from the empty records on. Between two of them nothing is pending. -/
theorem walk_all (targets : List Nat) (bound : ∀ i ∈ targets, i < sections.length) (w : Walk)
    (sound : w.Sound sections) (idle : ∀ i, ¬ w.Pending i) :
    (targets.foldl (visit sections sections.length) w).Sound sections ∧
      (∀ i, ¬ (targets.foldl (visit sections sections.length) w).Pending i) ∧
      w.entered ⊆ (targets.foldl (visit sections sections.length) w).entered ∧
      ∀ i ∈ targets, i ∈ (targets.foldl (visit sections sections.length) w).entered := by
  induction targets generalizing w with
  | nil => exact ⟨sound, idle, List.Subset.refl _, by simp⟩
  | cons i targets ih =>
      have first := visit_visited sections.length w i sound (bound i List.mem_cons_self) (by omega)
        fun j pending => absurd pending (idle j)
      obtain ⟨sound', idle', grown, entered⟩ := ih (fun j member => bound j (List.mem_cons_of_mem _ member))
        _ first.sound fun j pending => idle j ((first.grown.pending j).mp pending)
      refine ⟨sound', idle', List.Subset.trans first.grown.entered.subset grown,
        fun j member => ?_⟩
      rcases List.mem_cons.mp member with rfl | member
      · exact grown first.entered
      · exact entered j member

end Prompt.Order
