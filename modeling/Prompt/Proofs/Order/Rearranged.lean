import Prompt.Proofs.Order.Acyclic

/-!
# The same sections in another order

A list without repeated ids has no cycle exactly when its sections can be ranked so that each stands
above what it depends on (`members_eq_nil_iff_rank`), which does not depend on the order of the list. So
a valid list stays valid when it is rearranged (`Valid.of_perm`), and whatever a section needs, directly
or through others, has run before it (`mem_before_of_needs`).
-/

namespace Prompt
open Relation Prompt.Order

variable {sections : List Section}

namespace Section

/-- A section of the list that another one names among its dependencies. -/
def Needs (sections : List Section) (s t : Section) : Prop := t ∈ sections ∧ t.id ∈ s.dependsOn

theorem eq_of_id (nodup : (sections.map Section.id).Nodup) {s t : Section} (listed : s ∈ sections)
    (listed' : t ∈ sections) (same : s.id = t.id) : s = t :=
  List.inj_on_of_nodup_map nodup listed listed' same

end Section

/-! ### Ranks -/

namespace Cycle

theorem first?_of_mem (nodup : (sections.map Section.id).Nodup) {i : Nat} {s : Section}
    (found : sections[i]? = some s) : first? sections s.id = some i := by
  have member := List.mem_of_getElem? found
  obtain ⟨j, first⟩ := exists_first? (List.mem_map_of_mem (f := Section.id) member)
  obtain ⟨d, found', same, -⟩ := first?_eq_some first
  obtain rfl := Section.eq_of_id nodup (List.mem_of_getElem? found') member same
  have place : j = i := (List.getElem?_inj (List.getElem?_eq_some_iff.mp found').1 nodup.of_map).mp
    (found'.trans found.symm)
  rw [first, place]

theorem members_eq_nil_iff_rank (nodup : (sections.map Section.id).Nodup) :
    members sections = [] ↔ ∃ rank : String → Nat, ∀ s ∈ sections, ∀ t, Section.Needs sections s t →
      rank t.id < rank s.id := by
  constructor
  · intro acyclic
    refine ⟨fun id => ((first? sections id).map (place sections)).getD 0, ?_⟩
    rintro s listed t ⟨listed', depends⟩
    obtain ⟨i, found⟩ := List.mem_iff_getElem?.mp listed
    obtain ⟨j, found'⟩ := List.mem_iff_getElem?.mp listed'
    have first := first?_of_mem nodup found'
    dsimp only
    rw [first, first?_of_mem nodup found]
    exact members_eq_nil_iff.mp acyclic i j ⟨s, found, t.id, depends, first⟩
  · rintro ⟨rank, falls⟩
    apply @members_eq_nil_of_rank _ fun i => ((sections[i]?.map Section.id).map rank).getD 0
    rintro i j ⟨s, found, name, depends, first⟩
    obtain ⟨t, found', rfl, -⟩ := first?_eq_some first
    rw [found, found']
    exact falls s (List.mem_of_getElem? found) t ⟨List.mem_of_getElem? found', depends⟩

end Cycle

/-! ### Rearranging -/

theorem Section.Valid.of_perm {sections' : List Section} (valid : Section.Valid sections)
    (permuted : sections'.Perm sections) : Section.Valid sections' := by
  have ids := permuted.map Section.id
  have nodup := ids.nodup_iff.mpr valid.ids_nodup
  refine ⟨nodup, fun s listed => valid.unreserved s (permuted.mem_iff.mp listed),
    fun s listed name depends => ?_, fun s listed => valid.parameters s (permuted.mem_iff.mp listed), ?_⟩
  · exact ids.mem_iff.mpr (valid.named s (permuted.mem_iff.mp listed) name depends)
  · obtain ⟨rank, falls⟩ := (Cycle.members_eq_nil_iff_rank valid.ids_nodup).mp valid.acyclic
    refine (Cycle.members_eq_nil_iff_rank nodup).mpr ⟨rank, ?_⟩
    rintro s listed t ⟨listed', depends⟩
    exact falls s (permuted.mem_iff.mp listed) t ⟨permuted.mem_iff.mp listed', depends⟩

theorem Order.mem_before_of_needs (valid : Section.Valid sections) {before after : List Section}
    {s t : Section} (split : resolve sections = before ++ s :: after)
    (needs : TransGen (Section.Needs sections) s t) : t ∈ before := by
  have direct {before after : List Section} {s t : Section}
      (split : resolve sections = before ++ s :: after) (needed : Section.Needs sections s t) :
      t ∈ before := by
    obtain ⟨d, earlier, same⟩ := mem_before_of_valid valid split needed.2
    have listed : d ∈ sections := by
      rw [← (resolve_perm sections).mem_iff, split]
      exact List.mem_append_left _ earlier
    rwa [Section.eq_of_id valid.ids_nodup listed needed.1 same] at earlier
  induction needs with
  | single needed => exact direct split needed
  | tail _ needed ih =>
      obtain ⟨front, back, rfl⟩ := List.append_of_mem ih
      rw [List.append_assoc, List.cons_append] at split
      exact List.mem_append_left _ (direct split needed)

end Prompt
