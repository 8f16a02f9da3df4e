import Mathlib.Data.Fintype.Card
import Mathlib.Data.Set.Finite.List
import Mathlib.Order.WellFounded
import Prompt.Proofs.Order.Acyclic

/-!
# What the check for cycles reports

The first peeling leaves the ids from which a cycle can be reached, the second one those of them that are
reached from a cycle as well (`mem_peel_back`). Neither depends on the order in which ids and links are
walked through (`Arrangement`). A count is at every moment that of the links that are still to be taken
away, and so it never falls below zero (`Peeling.nonneg_moment`).
-/

namespace Prompt.Cycle
open Relation

variable {sections : List Section}

/-! ### Cycles -/

/-- An id leads to the names that its first definition depends on, as far as they are defined. -/
def Leads (sections : List Section) (a b : String) : Prop :=
  (∃ s, definition? sections a = some s ∧ b ∈ s.dependsOn) ∧ b ∈ sections.map Section.id

abbrev LeadsOn (sections : List Section) : String → String → Prop := ReflTransGen (Leads sections)

def OnCycle (sections : List Section) (id : String) : Prop := TransGen (Leads sections) id id

/-- On a cycle, or on a way from one cycle to another. -/
structure Between (sections : List Section) (id : String) : Prop where
  reaches : ∃ c, OnCycle sections c ∧ LeadsOn sections id c
  reached : ∃ c, OnCycle sections c ∧ LeadsOn sections c id

theorem OnCycle.between {id : String} (cycle : OnCycle sections id) : Between sections id :=
  ⟨⟨id, cycle, .refl⟩, ⟨id, cycle, .refl⟩⟩

theorem Leads.mem_nodes {a b : String} (leads : Leads sections a b) :
    a ∈ nodes sections ∧ b ∈ nodes sections := by
  obtain ⟨⟨s, found, -⟩, defined⟩ := leads
  have own : s.id = a := by simpa using List.find?_some found
  exact ⟨Cycle.mem_nodes.mpr (List.mem_map.mpr ⟨s, List.mem_of_find?_eq_some found, own⟩),
    Cycle.mem_nodes.mpr defined⟩

theorem mem_links_iff_leads {ids : List String} (known : ids ⊆ nodes sections) {a b : String} :
    ⟨a, b⟩ ∈ links sections ids ↔ a ∈ ids ∧ b ∈ ids ∧ Leads sections a b := by
  rw [mem_links, dependencies, Leads]
  refine and_congr_right fun _ => and_congr_right fun listed => ?_
  rw [and_iff_left (mem_nodes.mp (known listed))]
  cases definition? sections a <;> simp

/-- In a finite set where everything leads on, everything leads to a cycle. -/
theorem exists_cycle_of_supported {r : String → String → Prop} {ids : List String}
    (leads : ∀ id ∈ ids, ∃ target ∈ ids, r id target) {id : String} (member : id ∈ ids) :
    ∃ c, TransGen r c c ∧ ReflTransGen r id c := by
  by_contra none_on_cycle
  let ahead : Set String := {c | c ∈ ids ∧ ReflTransGen r id c}
  have : Finite ahead := (List.finite_toSet ids).subset fun _ member => member.1
  let beyond (c d : ahead) : Prop := TransGen r d.1 c.1
  have : IsTrans ahead beyond := ⟨fun _ _ _ first second => second.trans first⟩
  have : Std.Irrefl beyond := ⟨fun c back => none_on_cycle ⟨c.1, back, c.2.2⟩⟩
  -- Without a cycle there would be a last one, and it would have to lead on.
  obtain ⟨⟨last, listed, way⟩, -, ends⟩ :=
    (Finite.wellFounded_of_trans_of_irrefl beyond).has_min Set.univ ⟨⟨id, member, .refl⟩, trivial⟩
  obtain ⟨target, listed', step⟩ := leads last listed
  exact ends ⟨target, listed', way.tail step⟩ trivial (.single step)

/-! ### In whatever order -/

/-- Orders in which the two peelings may walk through what they peel: the ids whose counts are looked at
first, and the links as they are counted, before and after the peeling that `left` is left by. -/
structure Arrangement (sections : List Section) where
  ids : List String
  links : List Link
  left : List String
  backIds : List String
  backLinks : List Link
  ids_perm : ids.Perm (nodes sections)
  links_perm : links.Perm (Cycle.links sections (nodes sections))
  left_perm : left.Perm (peel links ids)
  backIds_perm : backIds.Perm left
  backLinks_perm : backLinks.Perm ((Cycle.links sections left).map Link.reversed)

namespace Arrangement

/-- What is left over, by first definitions. -/
def members (a : Arrangement sections) : List String :=
  (nodes sections).filter fun id => (peel a.backLinks a.backIds).contains id

/-- The order in which the ids are defined. -/
def defined (sections : List Section) : Arrangement sections where
  ids := nodes sections
  links := Cycle.links sections (nodes sections)
  left := reaching sections
  backIds := reaching sections
  backLinks := (Cycle.links sections (reaching sections)).map Link.reversed
  ids_perm := .refl _
  links_perm := .refl _
  left_perm := .refl _
  backIds_perm := .refl _
  backLinks_perm := .refl _

variable (a : Arrangement sections)

theorem nodup_ids : a.ids.Nodup := a.ids_perm.nodup_iff.mpr (nodup_nodes sections)

theorem links_closed : ∀ l ∈ a.links, l.target ∈ a.ids := fun l linked =>
  a.ids_perm.mem_iff.mpr (Cycle.links_closed l (a.links_perm.mem_iff.mp linked))

theorem mem_links {source target : String} :
    ⟨source, target⟩ ∈ a.links ↔ Leads sections source target := by
  rw [a.links_perm.mem_iff, mem_links_iff_leads (List.Subset.refl _)]
  exact ⟨fun linked => linked.2.2, fun leads => ⟨leads.mem_nodes.1, leads.mem_nodes.2, leads⟩⟩

theorem mem_left {id : String} :
    id ∈ a.left ↔ ∃ c, OnCycle sections c ∧ LeadsOn sections id c := by
  rw [a.left_perm.mem_iff]
  constructor
  · refine exists_cycle_of_supported fun id left => ?_
    obtain ⟨target, left', linked⟩ := supported_peel a.nodup_ids a.links_closed id left
    exact ⟨target, left', a.mem_links.mp linked⟩
  · rintro ⟨c, cycle, way⟩
    refine (mem_peel a.nodup_ids a.links_closed).mpr
      ⟨fun id => LeadsOn sections id c, way, fun id way => ?_, fun id way => ?_⟩
    · obtain ⟨target, step, rest⟩ := TransGen.head'_iff.mp (TransGen.trans_right way cycle)
      exact ⟨target, rest, a.mem_links.mpr step⟩
    · obtain ⟨target, step, -⟩ := TransGen.head'_iff.mp (TransGen.trans_right way cycle)
      exact a.ids_perm.mem_iff.mpr step.mem_nodes.1

theorem left_known : a.left ⊆ nodes sections := fun _ left =>
  a.ids_perm.subset ((peel_sublist _ _).subset (a.left_perm.subset left))

theorem nodup_backIds : a.backIds.Nodup :=
  (a.backIds_perm.trans a.left_perm).nodup_iff.mpr ((peel_sublist _ _).nodup a.nodup_ids)

theorem backLinks_closed : ∀ l ∈ a.backLinks, l.target ∈ a.backIds := fun l linked =>
  a.backIds_perm.mem_iff.mpr (reversed_links_closed l (a.backLinks_perm.mem_iff.mp linked))

theorem mem_backLinks {source target : String} : ⟨target, source⟩ ∈ a.backLinks ↔
    source ∈ a.left ∧ target ∈ a.left ∧ Leads sections source target := by
  rw [a.backLinks_perm.mem_iff, ← mem_links_iff_leads a.left_known, List.mem_map]
  constructor
  · rintro ⟨⟨source', target'⟩, linked, same⟩
    cases same
    exact linked
  · exact fun linked => ⟨_, linked, rfl⟩

theorem mem_peel_back {id : String} : id ∈ peel a.backLinks a.backIds ↔ Between sections id := by
  have listed : peel a.backLinks a.backIds ⊆ a.left := fun _ member =>
    a.backIds_perm.subset ((peel_sublist _ _).subset member)
  constructor
  · intro member
    have led : ∀ id ∈ peel a.backLinks a.backIds, ∃ source ∈ peel a.backLinks a.backIds,
        Function.swap (Leads sections) id source := by
      intro id left
      obtain ⟨source, left', linked⟩ := supported_peel a.nodup_backIds a.backLinks_closed id left
      exact ⟨source, left', (a.mem_backLinks.mp linked).2.2⟩
    obtain ⟨c, cycle, way⟩ := exists_cycle_of_supported led member
    exact ⟨a.mem_left.mp (listed member), c, transGen_swap.mp cycle, reflTransGen_swap.mp way⟩
  · intro between
    refine (mem_peel a.nodup_backIds a.backLinks_closed).mpr
      ⟨Between sections, between, fun id between => ?_, fun id between => ?_⟩
    · obtain ⟨⟨c, cycle, way⟩, d, cycle', way'⟩ := between
      obtain ⟨source, rest, step⟩ := TransGen.tail'_iff.mp (TransGen.trans_left cycle' way')
      have back : Between sections source := ⟨⟨c, cycle, way.head step⟩, ⟨d, cycle', rest⟩⟩
      exact ⟨source, back, a.mem_backLinks.mpr
        ⟨a.mem_left.mpr back.reaches, a.mem_left.mpr ⟨c, cycle, way⟩, step⟩⟩
    · exact a.backIds_perm.mem_iff.mpr (a.mem_left.mpr between.reaches)

theorem mem_members {id : String} : id ∈ a.members ↔ Between sections id := by
  rw [members, List.mem_filter, List.contains_iff_mem, a.mem_peel_back]
  refine and_iff_right_of_imp fun between => ?_
  exact a.left_known (a.mem_left.mpr between.reaches)

end Arrangement

/-! ### The report -/

theorem filter_of_sublist {ids nodes : List String} (sublist : ids.Sublist nodes)
    (nodup : nodes.Nodup) : nodes.filter (fun id => ids.contains id) = ids := by
  induction sublist with
  | slnil => rfl
  | cons id sublist ih =>
      obtain ⟨absent, nodup⟩ := List.nodup_cons.mp nodup
      rw [List.filter_cons_of_neg, ih nodup]
      simpa using fun member => absent (sublist.subset member)
  | cons_cons id sublist ih =>
      obtain ⟨absent, nodup⟩ := List.nodup_cons.mp nodup
      rw [List.filter_cons_of_pos (by simp)]
      refine congrArg _ ((List.filter_congr fun other member => ?_).trans (ih nodup))
      have apart : other ≠ id := fun same => absent (same ▸ member)
      simp [apart]

theorem members_sublist (sections : List Section) : (members sections).Sublist (nodes sections) :=
  (peel_sublist _ _).trans (peel_sublist _ _)

theorem members_defined (sections : List Section) :
    (Arrangement.defined sections).members = members sections :=
  filter_of_sublist (members_sublist sections) (nodup_nodes sections)

theorem Arrangement.members_eq (a : Arrangement sections) : a.members = Cycle.members sections := by
  rw [← members_defined, Arrangement.members, Arrangement.members]
  refine List.filter_congr fun id _ => ?_
  rw [Bool.eq_iff_iff, List.contains_iff_mem, List.contains_iff_mem, a.mem_peel_back,
    Arrangement.mem_peel_back]

theorem mem_members {id : String} : id ∈ members sections ↔ Between sections id := by
  rw [← members_defined, Arrangement.mem_members]

theorem members_eq_iff {ids : List String} : members sections = ids ↔
    ids.Sublist (nodes sections) ∧ ∀ id, id ∈ ids ↔ Between sections id := by
  constructor
  · rintro rfl
    exact ⟨members_sublist sections, fun _ => mem_members⟩
  · rintro ⟨sublist, between⟩
    rw [← filter_of_sublist (members_sublist sections) (nodup_nodes sections),
      ← filter_of_sublist sublist (nodup_nodes sections)]
    refine List.filter_congr fun id _ => ?_
    rw [Bool.eq_iff_iff, List.contains_iff_mem, List.contains_iff_mem, mem_members, between]

theorem members_ne_nil_iff : members sections ≠ [] ↔ ∃ id, OnCycle sections id := by
  constructor
  · intro filled
    obtain ⟨id, member⟩ := List.exists_mem_of_ne_nil _ filled
    obtain ⟨c, cycle, -⟩ := (mem_members.mp member).reaches
    exact ⟨c, cycle⟩
  · rintro ⟨c, cycle⟩
    exact List.ne_nil_of_mem (mem_members.mpr cycle.between)

theorem cycle_mem_check_iff {registry : Registry} {ids : List String} :
    .cycle ids ∈ (Section.check sections registry).issues ↔ ids ≠ [] ∧ members sections = ids := by
  rw [Section.cycle_mem_check, Section.cycles]
  cases members sections with
  | nil => simp [eq_comm]
  | cons id rest =>
      simp only [List.mem_singleton, Section.Issue.cycle.injEq]
      constructor
      · rintro rfl
        exact ⟨List.cons_ne_nil _ _, rfl⟩
      · exact fun same => same.2.symm

/-- The cycle that the checks report lists, by first definitions, the ids on cycles and between them, and
there is one exactly when there is a cycle. The order in which ids and links are walked through does not
show, and no count falls below zero on the way. -/
theorem reported_cycle (sections : List Section) (registry : Registry) :
    (∀ ids, .cycle ids ∈ (Section.check sections registry).issues ↔
      ids ≠ [] ∧ ids.Sublist (nodes sections) ∧ ∀ id, id ∈ ids ↔ Between sections id) ∧
    ((∃ ids, .cycle ids ∈ (Section.check sections registry).issues) ↔ ∃ id, OnCycle sections id) ∧
    ∀ a : Arrangement sections, a.members = members sections ∧
      (∀ turns done id n, (Peeling.moment a.links a.ids turns done).counts.get? id = some n → 0 ≤ n) ∧
      ∀ turns done id n,
        (Peeling.moment a.backLinks a.backIds turns done).counts.get? id = some n → 0 ≤ n := by
  refine ⟨fun ids => ?_, ?_, fun a => ⟨a.members_eq, ?_, ?_⟩⟩
  · rw [cycle_mem_check_iff, members_eq_iff]
  · rw [Section.exists_cycle_iff, members_ne_nil_iff]
  · intro turns done id n
    exact Peeling.nonneg_moment a.nodup_ids a.links_closed turns done
  · intro turns done id n
    exact Peeling.nonneg_moment a.nodup_backIds a.backLinks_closed turns done

/-- What lies between two cycles is reported with them, what only leads to one or comes from one is not. -/
example : members [
    { id := "first", outputKey := "", source := .single "", dependsOn := ["first", "gone"] },
    { id := "behind", outputKey := "", source := .single "", dependsOn := ["last"] },
    { id := "middle", outputKey := "", source := .single "", dependsOn := ["first", "first", "root"] },
    { id := "last", outputKey := "", source := .single "", dependsOn := ["middle", "last"] },
    { id := "root", outputKey := "", source := .single "" }] = ["first", "middle", "last"] := by decide

end Prompt.Cycle
