import Mathlib.Data.Finset.Card
import Mathlib.Data.List.Induction
import Prompt.Proofs.Repeats
import Prompt.Transform.Memory

/-!
# How many memories are kept

What stands in the list of kept memories changes with its members, but its identities only grow, and an
identity comes in once (`identities_keepMemory`). So one memory of each identity is kept
(`filterMap_keepMemories`), and all that have none are (`filter_isLone_keepMemories`).
-/

namespace Prompt.Transform

def identities (kept : List Recollection) : List (Option String) := kept.map Recollection.identity?

theorem identities_replaceOrAppend (new : Recollection) (kept : List Recollection) :
    identities (replaceOrAppend new kept) =
      if new.identity? ∈ identities kept then identities kept
      else identities kept ++ [new.identity?] := by
  induction kept with
  | nil => rfl
  | cons old rest ih =>
      unfold replaceOrAppend
      by_cases same : old.identity? = new.identity?
      · by_cases surer : confidence old.memory < confidence new.memory <;>
          simp [identities, same, surer]
      · have apart : new.identity? ≠ old.identity? := Ne.symm same
        simp only [identities] at ih
        by_cases known : new.identity? ∈ rest.map Recollection.identity? <;>
          simp_all [identities]

theorem identities_keepMemory (kept : List Recollection) (new : Recollection) :
    identities (keepMemory kept new) =
      if new.identity?.isSome ∧ new.identity? ∈ identities kept then identities kept
      else identities kept ++ [new.identity?] := by
  unfold keepMemory
  cases new.identity?.isSome with
  | true => simpa using identities_replaceOrAppend new kept
  | false => simp [identities]

def recollections (memories : List Json) : List Recollection :=
  (memories.map Recollection.ofJson).foldl keepMemory []

theorem recollections_concat (memories : List Json) (m : Json) :
    recollections (memories ++ [m]) = keepMemory (recollections memories) (.ofJson m) := by
  simp [recollections]

theorem mem_identities_recollections (memories : List Json) (identity : Option String) :
    identity ∈ identities (recollections memories) ↔ identity ∈ memories.map memoryIdentity? := by
  induction memories using List.reverseRecOn with
  | nil => rfl
  | append_singleton memories m ih =>
      rw [recollections_concat, identities_keepMemory, List.map_append, List.mem_append, ← ih]
      split
      · next known =>
          have same : (Recollection.ofJson m).identity? = memoryIdentity? m := rfl
          simp only [List.map_cons, List.map_nil, List.mem_singleton, ← same]
          exact ⟨.inl, fun either => either.elim id (· ▸ known.2)⟩
      · exact List.mem_append

theorem some_mem_identities {memories : List Json} {identity : String} :
    some identity ∈ identities (recollections memories) ↔ identity ∈ memories.filterMap memoryIdentity? := by
  rw [mem_identities_recollections, List.mem_map, List.mem_filterMap]

/-! ### Identities -/

theorem mem_replaceOrAppend {new r : Recollection} {kept : List Recollection}
    (member : r ∈ replaceOrAppend new kept) : r = new ∨ r ∈ kept := by
  induction kept with
  | nil => exact .inl (List.mem_singleton.1 member)
  | cons old rest ih =>
      unfold replaceOrAppend at member
      split at member
      · rcases List.mem_cons.1 member with rfl | later
        · split
          · exact .inl rfl
          · exact .inr List.mem_cons_self
        · exact .inr (List.mem_cons_of_mem _ later)
      · rcases List.mem_cons.1 member with rfl | later
        · exact .inr List.mem_cons_self
        · exact (ih later).imp_right (List.mem_cons_of_mem _)

theorem exists_of_mem_recollections {memories : List Json} {r : Recollection}
    (member : r ∈ recollections memories) : ∃ m ∈ memories, r = .ofJson m := by
  induction memories using List.reverseRecOn with
  | nil => cases member
  | append_singleton memories m ih =>
      rw [recollections_concat, keepMemory] at member
      have either : r = .ofJson m ∨ r ∈ recollections memories := by
        split at member
        · exact mem_replaceOrAppend member
        · exact (List.mem_append.1 member).symm.imp_left List.mem_singleton.1
      rcases either with rfl | earlier
      · exact ⟨m, List.mem_concat_self, rfl⟩
      · obtain ⟨m', listed, same⟩ := ih earlier
        exact ⟨m', List.mem_append_left _ listed, same⟩

theorem mem_of_mem_keepMemories {memories : List Json} {m : Json} (member : m ∈ keepMemories memories) :
    m ∈ memories := by
  obtain ⟨r, kept, rfl⟩ := List.mem_map.1 member
  obtain ⟨m, listed, rfl⟩ := exists_of_mem_recollections kept
  exact listed

theorem recollections_eq (memories : List Json) :
    recollections memories = (keepMemories memories).map .ofJson := by
  change _ = ((recollections memories).map Recollection.memory).map Recollection.ofJson
  rw [List.map_map]
  refine (List.map_id _).symm.trans (List.map_congr_left fun r kept => ?_)
  obtain ⟨m, -, rfl⟩ := exists_of_mem_recollections kept
  rfl

/-- Each identity is kept once, in the order in which the memories bring them up. -/
theorem filterMap_keepMemories (memories : List Json) :
    (keepMemories memories).filterMap memoryIdentity? = (memories.filterMap memoryIdentity?).eraseDups := by
  have shown : (keepMemories memories).filterMap memoryIdentity? =
      (identities (recollections memories)).filterMap id := by
    rw [recollections_eq memories, identities, List.map_map, List.filterMap_map]
    rfl
  rw [shown]
  clear shown
  induction memories using List.reverseRecOn with
  | nil => rfl
  | append_singleton memories m ih =>
      have own : (Recollection.ofJson m).identity? = memoryIdentity? m := rfl
      rw [recollections_concat, identities_keepMemory, own, List.filterMap_append]
      cases identity : memoryIdentity? m with
      | none => simpa [identity] using ih
      | some name =>
          have last : [m].filterMap memoryIdentity? = [name] := by simp [identity]
          rw [last, eraseDups_append_singleton, ← ih]
          by_cases before : name ∈ memories.filterMap memoryIdentity?
          · rw [if_pos before, if_pos ⟨rfl, some_mem_identities.2 before⟩]
          · rw [if_neg before, if_neg fun both => before (some_mem_identities.1 both.2),
              List.filterMap_append]
            rfl

theorem replaceOrAppend_of_fresh {new : Recollection} {kept : List Recollection}
    (fresh : new.identity? ∉ identities kept) : replaceOrAppend new kept = kept ++ [new] := by
  induction kept with
  | nil => rfl
  | cons old rest ih =>
      rw [identities, List.map_cons, List.mem_cons, not_or] at fresh
      rw [replaceOrAppend, if_neg (Ne.symm fresh.1), ih fresh.2, List.cons_append]

theorem recollections_of_nodup {memories : List Json} (once : (memories.filterMap memoryIdentity?).Nodup) :
    recollections memories = memories.map .ofJson := by
  induction memories using List.reverseRecOn with
  | nil => rfl
  | append_singleton memories m ih =>
      have earlier : (memories.filterMap memoryIdentity?).Nodup := by
        rw [List.filterMap_append] at once
        exact once.of_append_left
      have appended : keepMemory (recollections memories) (.ofJson m) =
          recollections memories ++ [.ofJson m] := by
        unfold keepMemory
        split
        · next about =>
            refine replaceOrAppend_of_fresh fun known => ?_
            obtain ⟨identity, own⟩ := Option.isSome_iff_exists.1 about
            have last : [m].filterMap memoryIdentity? = [identity] := List.filterMap_cons_some own
            rw [List.filterMap_append, last] at once
            rw [own] at known
            exact List.disjoint_of_nodup_append once (some_mem_identities.1 known) List.mem_cons_self
        · rfl
      rw [recollections_concat, appended, ih earlier, List.map_append,
        List.map_singleton]

/-- Keeping once more changes nothing. -/
theorem keepMemories_keepMemories (memories : List Json) :
    keepMemories (keepMemories memories) = keepMemories memories := by
  have once : ((keepMemories memories).filterMap memoryIdentity?).Nodup := by
    rw [filterMap_keepMemories]
    exact nodup_eraseDups _
  change (recollections (keepMemories memories)).map Recollection.memory = _
  rw [recollections_of_nodup once, List.map_map]
  exact List.map_id _

/-! ### Memories without an identity -/

def isLone (m : Json) : Bool := (memoryIdentity? m).isNone

theorem lone_replaceOrAppend {new : Recollection} (about : new.identity?.isSome = true)
    (kept : List Recollection) : (replaceOrAppend new kept).filter (fun r => r.identity?.isNone) =
      kept.filter fun r => r.identity?.isNone := by
  have other : new.identity?.isNone = false := by simp [about]
  induction kept with
  | nil => simp [replaceOrAppend, other]
  | cons old rest ih =>
      unfold replaceOrAppend
      split
      · next same =>
          have other' : old.identity?.isNone = false := same ▸ other
          split <;> simp [other, other']
      · rw [List.filter_cons, List.filter_cons, ih]

theorem filter_isLone_keepMemories (memories : List Json) :
    (keepMemories memories).filter isLone = memories.filter isLone := by
  have stored : (recollections memories).filter (fun r => r.identity?.isNone) =
      (memories.filter isLone).map .ofJson := by
    induction memories using List.reverseRecOn with
    | nil => rfl
    | append_singleton memories m ih =>
        have own : (Recollection.ofJson m).identity? = memoryIdentity? m := rfl
        rw [recollections_concat, keepMemory, List.filter_append, List.map_append, ← ih]
        cases identity : memoryIdentity? m with
        | none => simp [own, identity, isLone]
        | some name => simp [own, identity, isLone, lone_replaceOrAppend]
  calc (keepMemories memories).filter isLone
      = ((recollections memories).filter fun r => r.identity?.isNone).map Recollection.memory := by
        rw [recollections_eq, List.filter_map, List.map_map]
        exact (List.map_id _).symm
    _ = memories.filter isLone := by
        rw [stored, List.map_map]
        exact List.map_id _

/-- The number of memories that are about nothing else. -/
def loneCount (memories : List Json) : Nat := memories.countP fun m => (memoryIdentity? m).isNone

theorem loneCount_keepMemories (memories : List Json) :
    loneCount (keepMemories memories) = loneCount memories := by
  simp only [loneCount, List.countP_eq_length_filter]
  exact congrArg List.length (filter_isLone_keepMemories memories)

theorem length_eq_add_loneCount (memories : List Json) :
    memories.length = (memories.filterMap memoryIdentity?).length + loneCount memories := by
  rw [List.length_filterMap_eq_countP,
    List.length_eq_countP_add_countP fun m => (memoryIdentity? m).isSome, loneCount]
  refine congrArg _ (List.countP_congr fun m _ => ?_)
  simp

theorem length_keepMemories (memories : List Json) : (keepMemories memories).length =
    (memories.filterMap memoryIdentity?).toFinset.card + loneCount memories := by
  have distinct : (memories.filterMap memoryIdentity?).eraseDups.toFinset =
      (memories.filterMap memoryIdentity?).toFinset := by
    ext identity
    simp only [List.mem_toFinset, List.mem_eraseDups]
  rw [length_eq_add_loneCount, filterMap_keepMemories, loneCount_keepMemories, ← distinct,
    List.toFinset_card_of_nodup (nodup_eraseDups _)]

theorem length_keepMemories_le (memories : List Json) :
    (keepMemories memories).length ≤ memories.length := by
  have fewer := List.toFinset_card_le (memories.filterMap memoryIdentity?)
  rw [length_keepMemories, length_eq_add_loneCount memories]
  omega

theorem length_keepMemories_eq (memories : List Json) :
    (keepMemories memories).length = memories.length ↔
      (memories.filterMap memoryIdentity?).Nodup := by
  rw [length_keepMemories, length_eq_add_loneCount memories, Nat.add_right_cancel_iff]
  exact Multiset.toFinset_card_eq_card_iff_nodup

end Prompt.Transform
