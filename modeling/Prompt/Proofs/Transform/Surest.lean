import Prompt.Proofs.Decimal.Comparison
import Prompt.Proofs.Repeats
import Prompt.Proofs.Transform.Memory
import Prompt.Proofs.Transform.Target

/-!
# Which memories are kept

A memory with an identity stands for it, one without stands for itself. So a list names slots, and the kept
memories fill them, one for each slot in the order in which the slots are first named: of the memories of an
identity the surest, the first of them if there are several (`held_recollections`). Who is kept has a slot
alone, so keeping once more changes nothing (`keepMemories_keepMemories`).
-/

namespace Prompt.Transform

/-- The first of those of which none is surer. -/
def Surest (memories : List Json) (m : Json) : Prop :=
  ∃ before after, memories = before ++ m :: after ∧
    (∀ other ∈ before, confidence other < confidence m) ∧
    ∀ other ∈ after, confidence other ≤ confidence m

def isAbout (identity : String) (m : Json) : Bool := memoryIdentity? m == some identity

inductive Slot where
  | about (identity : String)
  | alone (place : Nat)
  deriving DecidableEq

namespace Slot

def ofJson (place : Nat) (m : Json) : Slot := (memoryIdentity? m).elim (alone place) about

def identity? : Slot → Option String
  | about identity => some identity
  | alone _ => none

/-- What stands in a slot of a list of memories. -/
def Holds (memories : List Json) : Slot → Json → Prop
  | about identity, m => Surest (memories.filter (isAbout identity)) m
  | alone place, m => memories[place]? = some m ∧ isLone m = true

end Slot

/-- The slots that the memories of a list name, one after the other. -/
def slots (memories : List Json) : List Slot := memories.mapIdx Slot.ofJson

/-! ### Confidence -/

def Weighed (memories : List Json) : Prop := ∀ m ∈ memories, (confidence m).isFinite = true

theorem weighed_of_sound {memories : List Json} (sound : (Json.arr memories).Sound) : Weighed memories := by
  intro m member
  unfold confidence
  cases number : numberField? m ["confidence"] with
  | none => decide +kernel
  | some x => exact isFinite_numberField? (sound_items sound m member) number

section Confidence
variable {memories : List Json} {m best : Json} (weighed : Weighed (memories ++ [m]))
include weighed

/-- One more memory: it is the surest only if it is surer than the surest so far. -/
theorem Surest.concat (surest : Surest memories best) :
    Surest (memories ++ [m]) (if confidence best < confidence m then m else best) := by
  have finite : ∀ x ∈ memories, (confidence x).isFinite = true := fun x member =>
    weighed x (List.mem_append_left _ member)
  have here : (confidence m).isFinite = true := weighed m List.mem_concat_self
  obtain ⟨before, after, rfl, less, most⟩ := surest
  have there := finite best (List.mem_append_right _ List.mem_cons_self)
  split
  · next surer =>
      refine ⟨before ++ best :: after, [], rfl, fun x member => ?_, List.forall_mem_nil _⟩
      have own := finite x member
      rw [Decimal.lt_iff_level there here] at surer
      rw [Decimal.lt_iff_level own here]
      rcases List.mem_append.1 member with earlier | later
      · exact ((Decimal.lt_iff_level own there).1 (less x earlier)).trans surer
      · rcases List.mem_cons.1 later with rfl | later
        · exact surer
        · exact ((Decimal.le_iff_level own there).1 (most x later)).trans_lt surer
  · next surer =>
      refine ⟨before, after ++ [m], by simp, less, fun x member => ?_⟩
      rcases List.mem_append.1 member with earlier | last
      · exact most x earlier
      · rw [List.mem_singleton.1 last, Decimal.le_iff_level here there]
        rw [Decimal.lt_iff_level there here] at surer
        exact le_of_not_gt surer

end Confidence

theorem Surest.mem {memories : List Json} {m : Json} (surest : Surest memories m) : m ∈ memories := by
  obtain ⟨before, after, rfl, -⟩ := surest
  exact List.mem_append_right _ List.mem_cons_self

/-! ### Slots -/

section Slots
variable {memories : List Json} {m : Json} {s : Slot}

theorem slots_concat (memories : List Json) (m : Json) :
    slots (memories ++ [m]) = slots memories ++ [Slot.ofJson memories.length m] :=
  List.mapIdx_concat

theorem Slot.ofJson_of_some {identity : String} (about : memoryIdentity? m = some identity) (place : Nat) :
    Slot.ofJson place m = .about identity := by
  rw [Slot.ofJson, about]
  rfl

theorem Slot.ofJson_of_none (lone : memoryIdentity? m = none) (place : Nat) :
    Slot.ofJson place m = .alone place := by
  rw [Slot.ofJson, lone]
  rfl

theorem mem_slots : s ∈ slots memories ↔ ∃ place m, memories[place]? = some m ∧ Slot.ofJson place m = s := by
  rw [slots, List.mem_mapIdx]
  constructor
  · rintro ⟨place, within, same⟩
    exact ⟨place, _, List.getElem?_eq_getElem within, same⟩
  · rintro ⟨place, m, found, same⟩
    obtain ⟨within, rfl⟩ := List.getElem?_eq_some_iff.1 found
    exact ⟨place, within, same⟩

theorem about_mem_slots {identity : String} :
    .about identity ∈ slots memories ↔ ∃ m ∈ memories, memoryIdentity? m = some identity := by
  rw [mem_slots]
  constructor
  · rintro ⟨place, m, found, same⟩
    refine ⟨m, List.mem_of_getElem? found, ?_⟩
    cases own : memoryIdentity? m with
    | none =>
        rw [Slot.ofJson_of_none own] at same
        cases same
    | some other =>
        rw [Slot.ofJson_of_some own] at same
        cases same
        rfl
  · rintro ⟨m, member, about⟩
    obtain ⟨place, found⟩ := List.getElem?_of_mem member
    exact ⟨place, m, found, Slot.ofJson_of_some about place⟩

theorem alone_not_mem_slots (memories : List Json) : .alone memories.length ∉ slots memories := by
  rw [mem_slots]
  rintro ⟨place, m, found, same⟩
  cases own : memoryIdentity? m with
  | none =>
      rw [Slot.ofJson_of_none own] at same
      cases same
      simp at found
  | some identity =>
      rw [Slot.ofJson_of_some own] at same
      cases same

namespace Slot
variable {x : Json}

theorem Holds.identity (holds : Holds memories s x) : memoryIdentity? x = s.identity? := by
  cases s with
  | about identity => exact beq_iff_eq.1 (List.mem_filter.1 holds.mem).2
  | alone place => exact Option.isNone_iff_eq_none.1 holds.2

theorem Holds.isAbout_iff {identity : String} (holds : Holds memories s x) :
    isAbout identity x = true ↔ s = .about identity := by
  rw [isAbout, beq_iff_eq, holds.identity]
  cases s <;> simp [identity?]

/-- A memory does not change what stands in the slots of the others. -/
theorem Holds.concat_of_ne (holds : Holds memories s x) (other : s ≠ ofJson memories.length m) :
    Holds (memories ++ [m]) s x := by
  cases s with
  | about identity =>
      have apart : isAbout identity m = false := by
        rw [isAbout, beq_eq_false_iff_ne]
        exact fun about => other (ofJson_of_some about _).symm
      have same : (memories ++ [m]).filter (isAbout identity) = memories.filter (isAbout identity) := by
        simp [List.filter_append, apart]
      show Surest ((memories ++ [m]).filter (isAbout identity)) x
      exact same ▸ holds
  | alone place =>
      obtain ⟨found, lone⟩ := holds
      obtain ⟨within, -⟩ := List.getElem?_eq_some_iff.1 found
      exact ⟨(List.getElem?_append_left within).trans found, lone⟩

theorem Holds.concat {identity : String} (weighed : Weighed (memories ++ [m]))
    (about : memoryIdentity? m = some identity) (holds : Holds memories (.about identity) x) :
    Holds (memories ++ [m]) (.about identity) (if confidence x < confidence m then m else x) := by
  have own : isAbout identity m = true := beq_iff_eq.2 about
  have listed : (memories ++ [m]).filter (isAbout identity) = memories.filter (isAbout identity) ++ [m] := by
    rw [List.filter_append, List.filter_singleton, own]
    rfl
  show Surest ((memories ++ [m]).filter (isAbout identity)) _
  rw [listed]
  refine Surest.concat (fun y member => ?_) holds
  rw [← listed] at member
  exact weighed y (List.mem_filter.1 member).1

/-- The first memory that names a slot fills it. -/
theorem holds_first (fresh : ofJson memories.length m ∉ slots memories) :
    Holds (memories ++ [m]) (ofJson memories.length m) m := by
  cases own : memoryIdentity? m with
  | none =>
      rw [ofJson_of_none own]
      exact ⟨List.getElem?_concat_length, Option.isNone_iff_eq_none.2 own⟩
  | some identity =>
      rw [ofJson_of_some own] at fresh ⊢
      have empty : memories.filter (isAbout identity) = [] := by
        rw [List.filter_eq_nil_iff]
        exact fun y member about => fresh (about_mem_slots.2 ⟨y, member, beq_iff_eq.1 about⟩)
      show Surest ((memories ++ [m]).filter (isAbout identity)) m
      rw [List.filter_append, empty, List.filter_singleton, isAbout, own, beq_self_eq_true]
      exact ⟨[], [], rfl, List.forall_mem_nil _, List.forall_mem_nil _⟩

end Slot
end Slots

/-! ### Keeping -/

section Keeping
variable {memories kept : List Json} {m : Json} {S : List Slot}

theorem held_concat (fresh : Slot.ofJson memories.length m ∉ S)
    (held : List.Forall₂ (Slot.Holds memories) S kept) :
    List.Forall₂ (Slot.Holds (memories ++ [m])) S kept := by
  induction held with
  | nil => exact .nil
  | cons holds rest ih =>
      rw [List.mem_cons, not_or] at fresh
      exact .cons (holds.concat_of_ne (Ne.symm fresh.1)) (ih fresh.2)

/-- The memory of a known identity changes the slot of that identity at most. -/
theorem held_replaceOrAppend {identity : String} (weighed : Weighed (memories ++ [m]))
    (about : memoryIdentity? m = some identity) (once : S.Nodup) (known : .about identity ∈ S)
    (held : List.Forall₂ (Slot.Holds memories) S kept) :
    ∃ kept', replaceOrAppend (.ofJson m) (kept.map .ofJson) = kept'.map .ofJson ∧
      List.Forall₂ (Slot.Holds (memories ++ [m])) S kept' := by
  have slot : Slot.ofJson memories.length m = .about identity := Slot.ofJson_of_some about _
  induction held with
  | nil => cases known
  | @cons s x S kept holds rest ih =>
      obtain ⟨fresh, once⟩ := List.nodup_cons.1 once
      have same : (Recollection.ofJson x).identity? = (Recollection.ofJson m).identity? ↔
          s = .about identity := by
        rw [← holds.isAbout_iff, isAbout, beq_iff_eq, ← about]
        rfl
      rw [List.map_cons, replaceOrAppend]
      by_cases here : s = .about identity
      · rw [if_pos (same.2 here)]
        subst here
        refine ⟨(if confidence x < confidence m then m else x) :: kept, ?_,
          .cons (holds.concat weighed about) (held_concat (slot ▸ fresh) rest)⟩
        rw [List.map_cons, apply_ite Recollection.ofJson]
        rfl
      · obtain ⟨kept', placed, held⟩ := ih once ((List.mem_cons.1 known).resolve_left (Ne.symm here))
        rw [if_neg (mt same.1 here), placed]
        exact ⟨x :: kept', rfl, .cons (holds.concat_of_ne (slot ▸ here)) held⟩

theorem held_recollections (weighed : Weighed memories) : ∃ kept,
    recollections memories = kept.map .ofJson ∧
      List.Forall₂ (Slot.Holds memories) (slots memories).eraseDups kept := by
  induction memories using List.reverseRecOn with
  | nil => exact ⟨[], rfl, .nil⟩
  | append_singleton memories m ih =>
      obtain ⟨kept, listed, held⟩ := ih fun x member => weighed x (List.mem_append_left _ member)
      have appended (fresh : Slot.ofJson memories.length m ∉ slots memories) :
          List.Forall₂ (Slot.Holds (memories ++ [m]))
            ((slots memories).eraseDups ++ [Slot.ofJson memories.length m]) (kept ++ [m]) :=
        List.rel_append (held_concat (mt List.mem_eraseDups.1 fresh) held)
          (.cons (Slot.holds_first fresh) .nil)
      rw [recollections_concat, slots_concat, eraseDups_append_singleton, listed, keepMemory]
      cases own : memoryIdentity? m with
      | none =>
          have fresh := alone_not_mem_slots memories
          rw [Slot.ofJson_of_none own] at appended ⊢
          have lone : (Recollection.ofJson m).identity? = none := own
          rw [if_neg fresh, lone, Option.isSome_none, if_neg Bool.false_ne_true]
          exact ⟨kept ++ [m], by simp, appended fresh⟩
      | some identity =>
          rw [Slot.ofJson_of_some own] at appended ⊢
          have about : (Recollection.ofJson m).identity? = some identity := own
          rw [about, Option.isSome_some, if_pos rfl]
          split
          · next known =>
              exact held_replaceOrAppend weighed own (nodup_eraseDups _) (List.mem_eraseDups.2 known) held
          · next fresh =>
              refine ⟨kept ++ [m], ?_, appended fresh⟩
              rw [replaceOrAppend_of_fresh, List.map_append, List.map_singleton]
              rw [← listed, about, some_mem_identities, List.mem_filterMap]
              exact mt about_mem_slots.2 fresh

theorem filter_isAbout_of_fresh {identity : String} (fresh : .about identity ∉ S)
    (held : List.Forall₂ (Slot.Holds memories) S kept) : kept.filter (isAbout identity) = [] := by
  induction held with
  | nil => rfl
  | cons holds rest ih =>
      rw [List.mem_cons, not_or] at fresh
      rw [List.filter_cons_of_neg (mt holds.isAbout_iff.1 (Ne.symm fresh.1)), ih fresh.2]

theorem filter_isAbout_of_held {identity : String} (once : S.Nodup) (known : .about identity ∈ S)
    (held : List.Forall₂ (Slot.Holds memories) S kept) :
    ∃ m, kept.filter (isAbout identity) = [m] ∧ Surest (memories.filter (isAbout identity)) m := by
  induction held with
  | nil => cases known
  | @cons s x S kept holds rest ih =>
      obtain ⟨fresh, once⟩ := List.nodup_cons.1 once
      by_cases here : s = .about identity
      · subst here
        refine ⟨x, ?_, holds⟩
        rw [List.filter_cons_of_pos (holds.isAbout_iff.2 rfl), filter_isAbout_of_fresh fresh rest]
      · rw [List.filter_cons_of_neg (mt holds.isAbout_iff.1 here)]
        exact ih once ((List.mem_cons.1 known).resolve_left (Ne.symm here))

end Keeping

/-- The kept memories fill the slots that a list names, each slot once, in the order in which it is first
named. All memories without an identity are kept, and for each identity one memory, the surest. Keeping once
more changes nothing. -/
theorem dedupeMemories_by_slot {memories : List Json} (sound : (Json.arr memories).Sound) :
    ∃ kept, dedupeMemories (.arr memories) = .arr kept ∧
      kept.filter isLone = memories.filter isLone ∧
      (∀ identity, (∃ m ∈ memories, isAbout identity m = true) →
        ∃ m, kept.filter (isAbout identity) = [m] ∧ Surest (memories.filter (isAbout identity)) m) ∧
      List.Forall₂ (Slot.Holds memories) (slots memories).eraseDups kept ∧
      dedupeMemories (.arr kept) = .arr kept := by
  obtain ⟨kept, listed, held⟩ := held_recollections (weighed_of_sound sound)
  have all : keepMemories memories = kept := by
    change (recollections memories).map Recollection.memory = kept
    rw [listed, List.map_map]
    exact List.map_id kept
  refine ⟨kept, congrArg Json.arr all, ?_, fun identity brought => ?_, held, ?_⟩
  · rw [← all, filter_isLone_keepMemories]
  · obtain ⟨m, member, about⟩ := brought
    have known : Slot.about identity ∈ slots memories := about_mem_slots.2 ⟨m, member, beq_iff_eq.1 about⟩
    exact filter_isAbout_of_held (nodup_eraseDups _) (List.mem_eraseDups.2 known) held
  · rw [← all]
    exact congrArg Json.arr (keepMemories_keepMemories memories)

def pets : List Json := [
  .obj [("category", .str "family"), ("key", .str "Pet"), ("value", .str "cat"),
    ("confidence", .num (.double 0.4))],
  .obj [("note", .str "Likes tea.")],
  .obj [("category", .str "Family"), ("key", .str "pet "), ("value", .str "dog"),
    ("confidence", .num (.int 1))]]

theorem dedupeMemories_by_slot_pets :
    (Json.arr pets).Sound ∧ ∃ kept, dedupeMemories (.arr pets) = .arr kept ∧
      List.Forall₂ (Slot.Holds pets) [.about "family::pet", .alone 1] kept := by
  have cat : (Json.num (.double 0.4)).Sound := .double (by decide +kernel)
  have sound : (Json.arr pets).Sound := by
    refine .arr ?_
    simp only [pets, List.forall_mem_cons, List.not_mem_nil, false_implies, implies_true, and_true]
    refine ⟨.obj (by decide) ?_, .obj (by decide) ?_, .obj (by decide) ?_⟩ <;>
      simp only [List.forall_mem_cons, List.not_mem_nil, false_implies, implies_true, and_true]
    · exact ⟨.str _, .str _, .str _, cat⟩
    · exact .str _
    · exact ⟨.str _, .str _, .str _, .int (by decide) (by decide)⟩
  obtain ⟨kept, deduped, -, -, filled, -⟩ := dedupeMemories_by_slot sound
  have named : (slots pets).eraseDups = [.about "family::pet", .alone 1] := by decide +kernel
  exact ⟨sound, kept, deduped, named ▸ filled⟩

end Prompt.Transform
