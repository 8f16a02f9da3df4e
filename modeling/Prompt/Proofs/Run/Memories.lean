import Prompt.Proofs.Run.Finished
import Prompt.Proofs.Transform.Memory
import Prompt.Proofs.Transform.Plan

/-!
# How many memories a document speaks of

A document counts the memories that are kept, and its metadata those that are loaded. The first count goes
through the output of a section, which is an empty object without a count when there is no memory, and from
there into two more sections (`countAt_memories`).
-/

namespace Prompt
open Transform

namespace Loaded

def memories (l : Loaded) : List Json := ((l.fragment? "memories").map Json.items).getD []

def keptCount (l : Loaded) : Nat :=
  match l.fragment? "memories" with
  | some (.arr memories) => (dedupeMemories (.arr memories)).items.length
  | _ => 0

theorem keptCount_eq (l : Loaded) : l.keptCount = (keepMemories l.memories).length := by
  unfold keptCount memories
  cases l.fragment? "memories" with
  | none => rfl
  | some j => cases j <;> rfl

end Loaded

namespace Composer

variable {l : Loaded} {c : Context} {r : Composition}

theorem made_memories (c : Context) :
    Section.memories.made c = groupMemories (dedupeMemories (c.inputValue "memories")) := by
  have chain : Section.memories.builtins = [.dedupeMemories, .groupMemories] := by decide
  rw [Section.made, chain]
  rfl

/-- Where no memory is loaded the output is empty, or it groups none. -/
theorem exists_output?_memories (finished : Finished ⟨{}, .builtin⟩ l c r) :
    ∃ output, c.output? "memories" = some output ∧
      (output = .obj [] ∧ l.keptCount = 0 ∨
        output.field? "totalCount" = some (.ofNat l.keptCount)) := by
  have stored : c.output? "memories" = if ["memories"].any c.hasData then some (Section.memories.made c)
      else some (.obj []) :=
    finished.output?_of_dataExists (s := Section.memories) (by simp [Section.defaults]) rfl
  have source := finished.source?_of_fragment (by decide : "memories" ≠ "caller") rfl
  by_cases present : c.hasData "memories" = true
  · refine ⟨_, by simpa [present] using stored, .inr ?_⟩
    rw [made_memories, Context.inputValue, source, Loaded.keptCount]
    cases fragment : l.fragment? "memories" with
    | none => rfl
    | some j => cases j <;> rfl
  · refine ⟨_, by simpa [present] using stored, .inl ⟨rfl, ?_⟩⟩
    unfold Context.hasData at present
    rw [source] at present
    unfold Loaded.keptCount
    cases fragment : l.fragment? "memories" with
    | none => rfl
    | some j =>
        rw [fragment] at present
        cases j with
        | arr memories => cases memories with
          | nil => rfl
          | cons m rest => exact absurd rfl present
        | _ => rfl

theorem countAt_memories (finished : Finished ⟨{}, .builtin⟩ l c r) :
    countAt c.snapshot "memories.totalCount" = l.keptCount := by
  obtain ⟨output, stored, described⟩ := exists_output?_memories finished
  have field : c.snapshot.field? "memories" = some output := by
    rw [Context.field?_snapshot finished.tidy, stored]
    rfl
  have segments : Text.splitOnChar '.' "memories.totalCount".toList =
      ["memories".toList, "totalCount".toList] := by decide
  have looked : c.snapshot.resolve? "memories.totalCount".toList =
      output.walk? ["totalCount".toList] := by
    rw [Json.resolve?_of_isObject rfl, Json.pathHead, segments]
    change ((c.snapshot.field? "memories").bind fun next => next.walk? ["totalCount".toList]) = _
    rw [field, Option.bind_some]
  rw [countAt, looked]
  rcases described with ⟨rfl, none⟩ | counted
  · rw [none]
    rfl
  · cases output with
    | obj es =>
        have counted : (Json.obj es).step? "totalCount".toList = some (.ofNat l.keptCount) := counted
        rw [Json.walk?, counted]
        rfl
    | _ => cases counted

theorem filter_opensWith (start : String) (xs : List String) :
    (xs.map Json.str).filter (fun j => j.asString?.any (opensWith start)) =
      (xs.filter (opensWith start)).map Json.str := by
  rw [List.filter_map]
  rfl

/-- A document counts the memories that are kept. These are no more than those that are loaded, and as many
exactly when no two of them are about the same thing; a rule speaks of them exactly when there are any. -/
theorem memoryCount_of_run {l : Loaded} (subject : l.subject.isObject = true) :
    ∃ p r, build {} .builtin = .ok p ∧ p.compose l = .ok r ∧
      r.field? "quickStart" "memoryCount" = some (.ofNat l.keptCount) ∧
      l.keptCount ≤ r.memoryCount ∧
      (l.keptCount = r.memoryCount ↔ (l.memories.filterMap memoryIdentity?).Nodup) ∧
      (r.items "instructions" "rules").filter (fun j => j.asString?.any (opensWith "You remember ")) =
        if l.keptCount = 0 then []
        else [.str ("You remember " ++ toString l.keptCount ++
          " thing(s) about the caller; bring them up naturally and never recite them as a list.")] := by
  obtain ⟨c, r, composed, finished⟩ := exists_finished_defaults subject
  have shown : r.field? "quickStart" "memoryCount" =
      some (.ofNat (countAt c.snapshot "memories.totalCount")) :=
    field?_quickStart finished (by decide)
  have told : r.field? "instructions" "rules" = some (.ofStrings (rules c.snapshot)) :=
    (field?_instructions finished (by decide)).trans (field?_instructions_rules c.snapshot)
  have loaded : r.memoryCount = l.memories.length := by
    rw [finished.memoryCount, Loaded.memories, Loaded.recordCount]
    change ((l.fragment? "memories").map _).getD 0 = _
    cases l.fragment? "memories" <;> rfl
  refine ⟨_, r, build_defaults, composed, ?_, ?_, ?_, ?_⟩
  · rw [shown, countAt_memories finished]
  · rw [loaded, Loaded.keptCount_eq]
    exact length_keepMemories_le _
  · rw [loaded, Loaded.keptCount_eq]
    exact length_keepMemories_eq _
  · rw [Composition.items_of_field? told, filter_opensWith, filter_rules_remembering,
      countAt_memories finished, memoryRule]
    split
    · rfl
    · rw [List.map_singleton, String.append_assoc]
      rfl

/-- Three memories, two of them about the same thing. -/
def petTwice : Loaded where
  subject := .obj [("name", .str "Ada")]
  fragments := [("memories", .arr [
    .obj [("category", .str "family"), ("key", .str "Pet"), ("value", .str "cat")],
    .obj [("category", .str "Family"), ("key", .str "pet "), ("value", .str "dog")],
    .obj [("note", .str "Likes tea.")]])]

theorem memoryCount_of_petTwice :
    petTwice.subject.isObject = true ∧
    ∃ p r, build {} .builtin = .ok p ∧ p.compose petTwice = .ok r ∧
      r.field? "quickStart" "memoryCount" = some (.ofNat 2) ∧ r.memoryCount ≠ 2 := by
  have subject : petTwice.subject.isObject = true := rfl
  obtain ⟨p, r, built, composed, shown, -, full, -⟩ := memoryCount_of_run subject
  have kept : petTwice.keptCount = 2 := by decide +kernel
  have repeated : ¬ (petTwice.memories.filterMap memoryIdentity?).Nodup := by decide +kernel
  rw [kept] at shown full
  exact ⟨subject, p, r, built, composed, shown, fun same => repeated (full.mp same.symm)⟩

end Composer
end Prompt
