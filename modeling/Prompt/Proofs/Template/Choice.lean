import Mathlib.Data.List.Forall2
import Prompt.Proofs.Sorting
import Prompt.Template.Catalogue

/-!
# What a catalogue gives

A template that shows something against the data gives a fragment, and the templates go by priority and then
by place. All of them together give the fragments in that order, and one alone gives the first of these
under another id (`renderFirst?_eq_head?`). An attribute takes its fragment from the foremost of the
templates that serve it (`picked_attributeFragment?`).
-/

namespace Prompt.Template

namespace Entry

/-- The text is not blank. -/
def shows (data : Json) (e : Entry) : Bool := Text.hasInk (compile e.template data)

def fragment (e : Entry) (id : String) (data : Json) : Fragment :=
  ⟨id, e.id, compile e.template data, e.template, data⟩

/-- A template of this attribute or of every attribute, whose text for it is not blank. -/
def Serves (t : Thresholds) (a : Attribute) (e : Entry) : Prop :=
  (∀ id ∈ e.attributeId, id = a.id) ∧ e.shows (a.data t) = true

theorem render?_eq (id : String) (data : Json) (e : Entry) :
    e.render? id data = (Option.guard (shows data) e).map fun e => e.fragment id data := by
  change (if e.shows data = true then some (e.fragment id data) else none) = _
  cases shown : e.shows data <;> simp [Option.guard, shown]

theorem serves_iff {t : Thresholds} {a : Attribute} {e : Entry} :
    e.Serves t a ↔ e.appliesTo a.id = true ∧ e.shows (a.data t) = true := by
  rw [Serves, appliesTo, Option.all_eq_true]
  simp only [beq_iff_eq, Option.mem_def]

end Entry

/-! ### One fragment and all of them -/

theorem sortedBy_byPriority (catalogue : List Entry) :
    SortedBy Entry.priority catalogue (byPriority catalogue) :=
  sortedBy_mergeSort Entry.priority catalogue

theorem renderFirst?_eq (id : String) (candidates : List Entry) (data : Json) :
    renderFirst? id candidates data =
      ((byPriority candidates).find? (Entry.shows data)).map fun e => e.fragment id data := by
  rw [renderFirst?, funext (Entry.render?_eq id data), ← List.findSome?_guard, List.map_findSome?]
  rfl

theorem renderAll_eq (catalogue : List Entry) (data : Json) : renderAll catalogue data =
    ((byPriority catalogue).filter (Entry.shows data)).map fun e => e.fragment e.id data := by
  have alone (e : Entry) : renderFirst? e.id [e] data =
      (Option.guard (Entry.shows data) e).map fun e => e.fragment e.id data := by
    rw [renderFirst?, byPriority, List.mergeSort_singleton, List.findSome?_singleton, Entry.render?_eq]
    cases shown : e.shows data <;> simp [Option.guard, shown]
  rw [renderAll, funext alone, ← List.map_filterMap, List.filterMap_eq_filter]

theorem renderFirst?_eq_head? (id : String) (catalogue : List Entry) (data : Json) :
    renderFirst? id catalogue data = (renderAll catalogue data).head?.map fun f => { f with id } := by
  rw [renderFirst?_eq, renderAll_eq, List.head?_map, List.head?_filter, Option.map_map]
  rfl

/-! ### Attributes -/

/-- What an attribute gets from a catalogue. -/
inductive Picked (catalogue : List Entry) (t : Thresholds) (a : Attribute) : Option Fragment → Prop
  | nothing (idle : ∀ e ∈ catalogue, ¬ e.Serves t a) : Picked catalogue t a none
  | fragment {e : Entry} (foremost : Foremost Entry.priority (Entry.Serves t a) catalogue e) :
      Picked catalogue t a (some (e.fragment a.id (a.data t)))

theorem picked_attributeFragment? (catalogue : List Entry) (t : Thresholds) (a : Attribute) :
    Picked catalogue t a (attributeFragment? catalogue t a) := by
  have sorted := sortedBy_byPriority (catalogue.filter fun e => e.appliesTo a.id)
  rw [attributeFragment?, renderFirst?_eq]
  cases found : (byPriority (catalogue.filter fun e => e.appliesTo a.id)).find? (Entry.shows (a.data t)) with
  | none =>
      refine .nothing fun e member serves => ?_
      obtain ⟨applies, shown⟩ := Entry.serves_iff.mp serves
      have listed := sorted.perm.mem_iff.mpr (List.mem_filter.mpr ⟨member, applies⟩)
      exact absurd shown (List.find?_eq_none.mp found e listed)
  | some e =>
      refine .fragment ?_
      rw [funext fun e => propext (@Entry.serves_iff t a e)]
      exact (sorted.foremost_of_find? found).of_filter

theorem attributeFragments_eq (attributes : List Attribute) (catalogue : List Entry) (t : Thresholds) :
    attributeFragments attributes catalogue t =
      (attributes.map (attributeFragment? catalogue t)).reduceOption := by
  change _ = (attributes.map (attributeFragment? catalogue t)).filterMap id
  rw [List.filterMap_map]
  rfl

/-- All templates of a catalogue that show something give their fragments by priority and then by place,
and the first of these is what the catalogue gives as one fragment, under whatever id is asked for. Each
attribute in turn gets the fragment of its foremost template, or none if no template serves it. -/
theorem fragments_of_catalogue (catalogue : List Entry) (data : Json) (id : String)
    (attributes : List Attribute) (t : Thresholds) :
    (∃ ordered, SortedBy Entry.priority catalogue ordered ∧ renderAll catalogue data =
      (ordered.filter (Entry.shows data)).map fun e => e.fragment e.id data) ∧
    (renderFirst? id catalogue data = none ↔ renderAll catalogue data = []) ∧
    (renderFirst? id catalogue data = (renderAll catalogue data).head?.map fun f => { f with id }) ∧
    ∃ picks, List.Forall₂ (Picked catalogue t) attributes picks ∧
      attributeFragments attributes catalogue t = picks.reduceOption := by
  refine ⟨⟨_, sortedBy_byPriority catalogue, renderAll_eq catalogue data⟩, ?_,
    renderFirst?_eq_head? id catalogue data, attributes.map (attributeFragment? catalogue t), ?_,
    attributeFragments_eq attributes catalogue t⟩
  · rw [renderFirst?_eq_head?, Option.map_eq_none_iff, List.head?_eq_none_iff]
  · rw [List.forall₂_map_right_iff, List.forall₂_same]
    exact fun a _ => picked_attributeFragment? catalogue t a

end Prompt.Template
