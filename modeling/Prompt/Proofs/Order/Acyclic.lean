import Prompt.Proofs.Order.Peeling
import Prompt.Proofs.Order.Precedence
import Prompt.Proofs.Repeats
import Prompt.Proofs.Section.Valid

/-!
# Lists without cycles

The check for cycles peels a graph of ids, and the run walks through positions. The two agree: no id is
left over exactly when every section comes behind the first definition of each name that it depends
on (`members_eq_nil_iff`). In a valid list everything that a section depends on has therefore run
before it.
-/

namespace Prompt
open Relation Prompt.Order

variable {sections : List Section}

namespace Order

theorem first?_eq_some {name : String} {i : Nat} (first : first? sections name = some i) :
    ∃ s, sections[i]? = some s ∧ s.id = name ∧ Cycle.definition? sections name = some s := by
  obtain ⟨bound, own, -⟩ := List.findIdx?_eq_some_iff_getElem.mp first
  refine ⟨sections[i], List.getElem?_eq_getElem bound, beq_iff_eq.mp own, ?_⟩
  rw [Cycle.definition?, List.find?_eq_bind_findIdx?_getElem?]
  change (first? sections name).bind _ = _
  rw [first, Option.bind_some, List.getElem?_eq_getElem bound]

theorem first?_inj {a b : String} {i : Nat} (first : first? sections a = some i)
    (second : first? sections b = some i) : a = b := by
  obtain ⟨s, found, rfl, -⟩ := first?_eq_some first
  obtain ⟨t, found', rfl, -⟩ := first?_eq_some second
  rw [found] at found'
  rw [Option.some.inj found']

theorem exists_first? {name : String} (defined : name ∈ sections.map Section.id) :
    ∃ i, first? sections name = some i := by
  obtain ⟨s, member, rfl⟩ := List.mem_map.mp defined
  rw [← Option.isSome_iff_exists, first?, List.findIdx?_isSome, List.any_eq_true]
  exact ⟨s, member, beq_self_eq_true s.id⟩

theorem mem_ids_of_first? {name : String} {i : Nat} (first : first? sections name = some i) :
    name ∈ sections.map Section.id := by
  obtain ⟨s, found, rfl, -⟩ := first?_eq_some first
  exact List.mem_map_of_mem (List.mem_of_getElem? found)

theorem exists_name_of_reaches {name : String} {i j : Nat} (first : first? sections name = some i)
    (reaches : Reaches sections i j) : ∃ other, first? sections other = some j := by
  cases reaches with
  | refl => exact ⟨name, first⟩
  | tail _ depends =>
      obtain ⟨-, -, other, -, found⟩ := depends
      exact ⟨other, found⟩

end Order

namespace Cycle

theorem nodup_nodes (sections : List Section) : (nodes sections).Nodup := nodup_eraseDups _

theorem mem_nodes {id : String} : id ∈ nodes sections ↔ id ∈ sections.map Section.id :=
  List.mem_eraseDups

theorem mem_links {ids : List String} {a b : String} :
    ⟨a, b⟩ ∈ links sections ids ↔ a ∈ ids ∧ b ∈ ids ∧ b ∈ dependencies sections a := by
  simp only [links, List.mem_flatMap, List.mem_map, List.mem_filter, List.contains_iff_mem,
    Link.mk.injEq]
  constructor
  · rintro ⟨a', member, b', ⟨depends, known⟩, rfl, rfl⟩
    exact ⟨member, known, depends⟩
  · rintro ⟨member, known, depends⟩
    exact ⟨a, member, b, ⟨depends, known⟩, rfl, rfl⟩

/-- The links between ids are the dependencies of their first definitions. -/
theorem mem_links_nodes {a b : String} {i j : Nat} (first : first? sections a = some i)
    (second : first? sections b = some j) :
    ⟨a, b⟩ ∈ links sections (nodes sections) ↔ DependsOn sections i j := by
  obtain ⟨s, found, -, definition⟩ := first?_eq_some first
  rw [mem_links, mem_nodes, mem_nodes, dependencies, definition]
  simp only [mem_ids_of_first? first, mem_ids_of_first? second, true_and, Option.map_some,
    Option.getD_some]
  constructor
  · intro depends
    exact ⟨s, found, b, depends, second⟩
  · rintro ⟨s', found', name, depends, named⟩
    rw [found] at found'
    rw [Option.some.inj found', first?_inj second named]
    exact depends

/-! ### The two peelings -/

/-- The ids from which a cycle can be reached. -/
def reaching (sections : List Section) : List String :=
  peel (links sections (nodes sections)) (nodes sections)

theorem links_closed {ids : List String} : ∀ l ∈ links sections ids, l.target ∈ ids :=
  fun _ linked => (mem_links.mp linked).2.1

theorem reversed_links_closed {ids : List String} :
    ∀ l ∈ (links sections ids).map Link.reversed, l.target ∈ ids := by
  intro l reversed
  obtain ⟨⟨a, b⟩, linked, rfl⟩ := List.mem_map.mp reversed
  exact (mem_links.mp linked).1

theorem reaching_subset : reaching sections ⊆ nodes sections :=
  (peel_sublist _ _).subset

theorem supported_reaching :
    Supported (links sections (nodes sections)) fun id => id ∈ reaching sections :=
  supported_peel (nodup_nodes sections) links_closed

theorem nodup_reaching : (reaching sections).Nodup :=
  (peel_sublist _ _).nodup (nodup_nodes sections)

theorem members_subset : members sections ⊆ reaching sections :=
  (peel_sublist _ _).subset

/-- What is linked into itself in both directions stays in both peelings. -/
theorem mem_members_of_supported {kept : String → Prop}
    (defined : ∀ id, kept id → id ∈ nodes sections)
    (leads : ∀ id, kept id → ∃ target, kept target ∧ ⟨id, target⟩ ∈ links sections (nodes sections))
    (led : ∀ id, kept id → ∃ source, kept source ∧ ⟨source, id⟩ ∈ links sections (nodes sections))
    {id : String} (member : kept id) : id ∈ members sections := by
  have stays : ∀ other, kept other → other ∈ reaching sections := fun other member =>
    (mem_peel (nodup_nodes sections) links_closed).mpr ⟨kept, member, leads, defined⟩
  refine (mem_peel nodup_reaching reversed_links_closed).mpr ⟨kept, member, fun other here => ?_, stays⟩
  obtain ⟨source, there, linked⟩ := led other here
  exact ⟨source, there, List.mem_map.mpr
    ⟨⟨source, other⟩, mem_links.mpr ⟨stays source there, stays other here, (mem_links.mp linked).2.2⟩,
      rfl⟩⟩

/-! ### Against the order of the run -/

theorem place_lt_of_members_eq_nil (acyclic : members sections = []) {i j : Nat}
    (bound : i < sections.length) (depends : DependsOn sections i j) :
    place sections j < place sections i := by
  rcases place_lt_or_reaches bound depends with earlier | back
  · exact earlier
  -- Otherwise `j` lies on a cycle, all of which would be left over.
  exfalso
  have cycle : TransGen (DependsOn sections) j j := .tail' back depends
  obtain ⟨-, -, name, -, first⟩ := depends
  let kept (id : String) : Prop :=
    ∃ k, first? sections id = some k ∧ Reaches sections j k ∧ Reaches sections k j
  have member : name ∈ members sections := by
    refine @mem_members_of_supported sections kept ?_ ?_ ?_ _ ⟨j, first, .refl, .refl⟩
    · rintro id ⟨k, found, -, -⟩
      exact mem_nodes.mpr (mem_ids_of_first? found)
    · rintro id ⟨k, found, there, here⟩
      obtain ⟨m, step, rest⟩ := TransGen.head'_iff.mp (TransGen.trans_right here cycle)
      obtain ⟨other, found'⟩ := exists_name_of_reaches first (there.tail step)
      exact ⟨other, ⟨m, found', there.tail step, rest⟩, (mem_links_nodes found found').mpr step⟩
    · rintro id ⟨k, found, there, here⟩
      obtain ⟨m, rest, step⟩ := TransGen.tail'_iff.mp (TransGen.trans_left cycle there)
      obtain ⟨other, found'⟩ := exists_name_of_reaches first rest
      exact ⟨other, ⟨m, found', rest, here.head step⟩, (mem_links_nodes found' found).mpr step⟩
  rw [acyclic] at member
  cases member

theorem members_eq_nil_of_rank {rank : Nat → Nat}
    (falls : ∀ i j, DependsOn sections i j → rank j < rank i) : members sections = [] := by
  have none_reaches (n : Nat) : ∀ id ∈ reaching sections, ∀ i, first? sections id = some i →
      rank i ≠ n := by
    induction n using Nat.strongRecOn with
    | _ n ih =>
      rintro id member i first rfl
      -- What is left over has a link to something that is left over, and that has a lower rank.
      obtain ⟨target, stays, linked⟩ := supported_reaching id member
      obtain ⟨j, second⟩ := exists_first? (mem_nodes.mp (reaching_subset stays))
      have depends := (mem_links_nodes first second).mp linked
      exact ih _ (falls i j depends) target stays j second rfl
  refine List.eq_nil_iff_forall_not_mem.mpr fun id member => ?_
  have stays := members_subset member
  obtain ⟨i, first⟩ := exists_first? (mem_nodes.mp (reaching_subset stays))
  exact none_reaches _ id stays i first rfl

theorem members_eq_nil_iff : members sections = [] ↔
    ∀ i j, DependsOn sections i j → place sections j < place sections i := by
  refine ⟨fun acyclic i j depends => ?_, members_eq_nil_of_rank⟩
  obtain ⟨s, found, -⟩ := id depends
  exact place_lt_of_members_eq_nil acyclic (List.getElem?_eq_some_iff.mp found).1 depends

end Cycle

namespace Order

theorem exists_place {before after : List Section} {s : Section}
    (split : resolve sections = before ++ s :: after) :
    ∃ i, sections[i]? = some s ∧ place sections i = before.length := by
  have here : (resolve sections)[before.length]? = some s := by simp [split]
  rw [getElem?_resolve, Option.bind_eq_some_iff] at here
  obtain ⟨i, listed, found⟩ := here
  obtain ⟨bound, rfl⟩ := List.getElem?_eq_some_iff.mp listed
  exact ⟨_, found, (positions_nodup sections).idxOf_getElem _ bound⟩

theorem mem_before_of_valid (valid : Section.Valid sections) {before after : List Section} {s : Section}
    (split : resolve sections = before ++ s :: after) {name : String} (depends : name ∈ s.dependsOn) :
    ∃ d ∈ before, d.id = name := by
  obtain ⟨i, found, here⟩ := exists_place split
  obtain ⟨j, first⟩ := exists_first? (valid.named s (List.mem_of_getElem? found) name depends)
  have earlier := Cycle.members_eq_nil_iff.mp valid.acyclic i j ⟨s, found, name, depends, first⟩
  obtain ⟨d, found', own, -⟩ := first?_eq_some first
  have there := getElem?_resolve_place (List.getElem?_eq_some_iff.mp found').1
  rw [found', split, List.getElem?_append_left (here ▸ earlier)] at there
  exact ⟨d, List.mem_of_getElem? there, own⟩

/-- The checks find no cycle exactly when the run puts every section behind the first definition of
each name that it depends on and that is defined. When the list is valid, all names are. -/
theorem no_cycle_iff_dependencies_earlier (sections : List Section) (registry : Registry) :
    ((¬ ∃ ids, .cycle ids ∈ (Section.check sections registry).issues) ↔
      ∀ i s, sections[i]? = some s → ∀ name ∈ s.dependsOn, ∀ j, first? sections name = some j →
        place sections j < place sections i) ∧
    ((Section.check sections registry).isValid = true →
      ∀ before s after, resolve sections = before ++ s :: after →
        ∀ name ∈ s.dependsOn, ∃ d ∈ before, d.id = name) := by
  constructor
  · rw [Section.exists_cycle_iff, not_not, Cycle.members_eq_nil_iff]
    constructor
    · intro earlier i s found name depends j first
      exact earlier i j ⟨s, found, name, depends, first⟩
    · rintro earlier i j ⟨s, found, name, depends, first⟩
      exact earlier i s found name depends j first
  · intro accepted before s after split name depends
    exact mem_before_of_valid ((Section.isValid_check sections registry).mp accepted) split depends

/-- A definition behind another one of its id is no cycle, though it depends on that id. -/
example : Cycle.members [
    { id := "twice", outputKey := "", source := .single "" },
    { id := "twice", outputKey := "", source := .single "", dependsOn := ["twice"] }] = [] := by decide

end Order

end Prompt
