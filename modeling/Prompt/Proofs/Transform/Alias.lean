import Prompt.Proofs.Transform.Target
import Prompt.Transform.Caller

/-!
# Fields that go by several names

What is read of a field that goes by several names is the first text under any of them, and nothing if that
text is empty (`textField?_eq`). So an empty text hides a usable one behind it; on all other records what is
read is the first text that is not empty (`textField?_eq_usable?_iff`). The names of callers, the ids of
targets and the dates of calls are read in this way.
-/

namespace Prompt.Transform

/-- The texts that a record holds under the names, in the order of the names. -/
def texts (j : Json) (names : List String) : List String :=
  names.filterMap fun n => (j.field? n).bind Json.asString?

def usable? (j : Json) (names : List String) : Option String := (texts j names).find? fun s => s != ""

def Hides (j : Json) (names : List String) : Prop :=
  (texts j names).head? = some "" ∧ ∃ s ∈ texts j names, s ≠ ""

instance (j : Json) (names : List String) : Decidable (Hides j names) :=
  inferInstanceAs (Decidable (_ ∧ ∃ s ∈ _, _))

section Read
variable {j : Json} {names : List String}

theorem textField?_eq : textField? j names = (texts j names).head?.filter fun s => s != "" := by
  rw [textField?, texts, List.head?_filterMap]

theorem usable?_of_textField? {s : String} (read : textField? j names = some s) :
    usable? j names = some s := by
  rw [textField?_eq] at read
  rw [usable?]
  cases held : texts j names with
  | nil => simp [held] at read
  | cons t rest =>
      obtain ⟨same, filled⟩ := Option.filter_eq_some_iff.1 (held ▸ read)
      cases same
      exact List.find?_cons_of_pos filled

theorem textField?_of_hides (hides : Hides j names) : textField? j names = none := by
  rw [textField?_eq, hides.1]
  rfl

theorem isSome_usable?_iff : (usable? j names).isSome ↔ ∃ s ∈ texts j names, s ≠ "" := by
  simp [usable?]

theorem textField?_eq_usable?_iff : textField? j names = usable? j names ↔ ¬ Hides j names := by
  constructor
  · intro same hides
    have found := isSome_usable?_iff.2 hides.2
    rw [← same, textField?_of_hides hides] at found
    cases found
  · intro visible
    rw [textField?_eq, usable?]
    cases held : texts j names with
    | nil => rfl
    | cons t rest =>
        by_cases empty : t = ""
        · have unusable : ∀ s ∈ t :: rest, s = "" := by
            simpa [Hides, held, empty] using visible
          rw [List.find?_eq_none.2 fun s member => by simp [unusable s member], empty]
          rfl
        · rw [List.find?_cons_of_pos (by simpa using empty)]
          simp [Option.filter, empty]

end Read

/-! ### What transforms make of it -/

theorem field?_name_callerFacts (j : Json) :
    (callerFacts j).field? "name" = (textField? j ["name", "displayName"]).map Json.str := by
  have id : (plainId j).get? "name" = none := by
    unfold plainId
    split <;> rfl
  have name : (nameFacts j).get? "name" = (textField? j ["name", "displayName"]).map Json.str := by
    unfold nameFacts
    cases textField? j ["name", "displayName"] <;> rfl
  have other (source as : String) (apart : as ≠ "name") : (copied j source as).get? "name" = none := by
    rw [copied, Entries.get?_optional, if_neg apart]
  rw [callerFacts, Json.field?_obj]
  simp only [Entries.get?_append, Entries.get?_optional, id, name, Option.none_or]
  rw [other _ _ (by decide), other _ _ (by decide), other _ _ (by decide)]
  simp [Entries.get?]

def givenTargets (j : Json) : List Json := listField j "behaviorTargets" ++ listField j "callerTargets"

/-- The id of a target that has a number. -/
def valuedId? (t : Json) : Option String := do
  let id ← usable? t ["parameterId", "id"]
  let _ ← numberField? t ["targetValue", "value"]
  return id

theorem map_id_ofJson? {t : Json} (visible : ¬ Hides t ["parameterId", "id"]) (layer : String) :
    (Target.ofJson? layer t).map Target.id = valuedId? t := by
  rw [Target.ofJson?, valuedId?, textField?_eq_usable?_iff.2 visible]
  cases usable? t ["parameterId", "id"] with
  | none => rfl
  | some id => cases numberField? t ["targetValue", "value"] <;> rfl

theorem ids_targetLayers {j : Json} (visible : ∀ t ∈ givenTargets j, ¬ Hides t ["parameterId", "id"]) :
    (targetLayers j).map Target.id = (givenTargets j).filterMap valuedId? := by
  have layer (name : String) (ts : List Json) (listed : ∀ t ∈ ts, t ∈ givenTargets j) :
      (ts.filterMap (Target.ofJson? name)).map Target.id = ts.filterMap valuedId? := by
    rw [List.map_filterMap]
    exact List.filterMap_congr fun t member => map_id_ofJson? (visible t (listed t member)) name
  rw [targetLayers, givenTargets, List.map_append, List.filterMap_append,
    layer _ _ fun t member => List.mem_append_left _ member,
    layer _ _ fun t member => List.mem_append_right _ member]

def callDate? (call : Json) : Option String := usable? call ["startedAt", "createdAt"]

theorem newestFirst_perm (calls : List Json) : (newestFirst calls).Perm calls := List.mergeSort_perm ..

theorem newestFirst_pairwise (calls : List Json) :
    (newestFirst calls).Pairwise fun a b => (callTime? b).getD "" ≤ (callTime? a).getD "" := by
  refine (List.pairwise_mergeSort (fun a b c first second => ?_) (fun a b => ?_) calls).imp of_decide_eq_true
  · exact decide_eq_true (String.le_trans (of_decide_eq_true second) (of_decide_eq_true first))
  · simpa using String.le_total ((callTime? b).getD "") ((callTime? a).getD "")

theorem callHistory_dates (j : Json) :
    (callHistory j).field? "lastCallAt" =
      (newestFirst j.items).head?.map (fun c => .ofString? (callTime? c)) ∧
    (listField (callHistory j) "recent").map (fun c => c.field? "when") =
      ((newestFirst j.items).take recentLimit).map fun c => some (.ofString? (callTime? c)) := by
  unfold callHistory
  cases newestFirst j.items with
  | nil => exact ⟨rfl, rfl⟩
  | cons latest calls =>
      refine ⟨rfl, ?_⟩
      change List.map _ (List.map _ _) = _
      rw [List.map_map]
      rfl

theorem callTime?_eq {call : Json} (visible : ¬ Hides call ["startedAt", "createdAt"]) :
    callTime? call = callDate? call := textField?_eq_usable?_iff.2 visible

/-- The calls of a history by the dates that they can be given, latest first. -/
theorem exists_dated_calls {j : Json} (visible : ∀ c ∈ j.items, ¬ Hides c ["startedAt", "createdAt"]) :
    ∃ calls : List Json, calls.Perm j.items ∧
      calls.Pairwise (fun a b => (callDate? b).getD "" ≤ (callDate? a).getD "") ∧
      (callHistory j).field? "lastCallAt" = calls.head?.map (fun c => .ofString? (callDate? c)) ∧
      (listField (callHistory j) "recent").map (fun c => c.field? "when") =
        (calls.take recentLimit).map fun c => some (.ofString? (callDate? c)) := by
  have perm := newestFirst_perm j.items
  have dated : ∀ c ∈ newestFirst j.items, callTime? c = callDate? c := fun c member =>
    callTime?_eq (visible c (perm.mem_iff.1 member))
  obtain ⟨last, recent⟩ := callHistory_dates j
  refine ⟨newestFirst j.items, perm, ?_, ?_, ?_⟩
  · refine (newestFirst_pairwise j.items).imp_of_mem fun {a b} first second order => ?_
    rwa [dated a first, dated b second] at order
  · rw [last]
    exact Option.map_congr fun c head => by rw [dated c (List.mem_of_head? head)]
  · rw [recent]
    exact List.map_congr_left fun c member => by rw [dated c (List.mem_of_mem_take member)]

theorem ids_mergeTargets {j : Json} (visible : ∀ t ∈ givenTargets j, ¬ Hides t ["parameterId", "id"]) :
    (listField (mergeTargets j) "targets").map (fun t => t.field? "parameterId") =
      ((givenTargets j).filterMap valuedId?).eraseDups.map fun id => some (.str id) := by
  rw [listField_mergeTargets, ← ids_targetLayers visible, ← ids_merged, List.map_map, List.map_map]
  rfl

/-- A text that is read is the first usable one. Where an empty text hides it nothing is read; on every other
record it is read, so that a caller keeps a name, a target its id and a call its date. -/
theorem textField?_first_usable (j : Json) (names : List String) :
    (∀ s, textField? j names = some s → usable? j names = some s) ∧
    (Hides j names → textField? j names = none ∧ (usable? j names).isSome) ∧
    (¬ Hides j names → textField? j names = usable? j names ∧
      ((textField? j names).isSome ↔ ∃ s ∈ texts j names, s ≠ "")) ∧
    (¬ Hides j ["name", "displayName"] →
      (callerFacts j).field? "name" = (usable? j ["name", "displayName"]).map Json.str) ∧
    ((∀ t ∈ givenTargets j, ¬ Hides t ["parameterId", "id"]) →
      (listField (mergeTargets j) "targets").map (fun t => t.field? "parameterId") =
        ((givenTargets j).filterMap valuedId?).eraseDups.map fun id => some (.str id)) ∧
    ((∀ c ∈ j.items, ¬ Hides c ["startedAt", "createdAt"]) → ∃ calls : List Json,
      calls.Perm j.items ∧ calls.Pairwise (fun a b => (callDate? b).getD "" ≤ (callDate? a).getD "") ∧
      (callHistory j).field? "lastCallAt" = calls.head?.map (fun c => .ofString? (callDate? c)) ∧
      (listField (callHistory j) "recent").map (fun c => c.field? "when") =
        (calls.take recentLimit).map fun c => some (.ofString? (callDate? c))) := by
  refine ⟨fun s => usable?_of_textField?, fun hides => ?_, fun visible => ?_, fun visible => ?_,
    ids_mergeTargets, exists_dated_calls⟩
  · exact ⟨textField?_of_hides hides, isSome_usable?_iff.2 hides.2⟩
  · have same := textField?_eq_usable?_iff.2 visible
    exact ⟨same, same ▸ isSome_usable?_iff⟩
  · rw [field?_name_callerFacts, textField?_eq_usable?_iff.2 visible]

def nicknamed : Json := .obj [("name", .null), ("displayName", .str "Ada")]

def warmth : Json := .obj [("parameterId", .bool true), ("id", .str "warmth"), ("value", .num (.int 1))]

def dawnCall : Json := .obj [("createdAt", .str "2026-01-01"), ("summary", .str "")]

/-- A field that holds no text gives way to its other name. -/
theorem textField?_first_usable_nicknamed :
    ¬ Hides nicknamed ["name", "displayName"] ∧
    textField? nicknamed ["name", "displayName"] = some "Ada" ∧
    (callerFacts nicknamed).field? "name" = some (.str "Ada") ∧
    (listField (mergeTargets (.obj [("callerTargets", .arr [warmth])])) "targets").map
      (fun t => t.field? "parameterId") = [some (.str "warmth")] ∧
    (callHistory (.arr [dawnCall])).field? "lastCallAt" = some (.str "2026-01-01") := by
  have visible : ¬ Hides nicknamed ["name", "displayName"] := by decide +kernel
  have own : ∀ t ∈ givenTargets (.obj [("callerTargets", .arr [warmth])]), ¬ Hides t ["parameterId", "id"] := by
    decide +kernel
  have dated : ∀ c ∈ (Json.arr [dawnCall]).items, ¬ Hides c ["startedAt", "createdAt"] := by decide +kernel
  obtain ⟨-, -, reads, caller, -, -⟩ := textField?_first_usable nicknamed ["name", "displayName"]
  obtain ⟨-, -, -, -, targets, -⟩ := textField?_first_usable (.obj [("callerTargets", .arr [warmth])]) []
  obtain ⟨-, -, -, -, -, history⟩ := textField?_first_usable (.arr [dawnCall]) []
  obtain ⟨calls, perm, -, last, -⟩ := history dated
  obtain rfl := List.perm_singleton.1 perm
  exact ⟨visible, (reads visible).1, caller visible, targets own, last⟩

def unnamed : Json := .obj [("name", .str ""), ("displayName", .str "Ada")]

def hush : Json := .obj [("parameterId", .str ""), ("id", .str "hush"), ("value", .num (.int 1))]

def duskCall : Json := .obj [("startedAt", .str ""), ("createdAt", .str "2026-01-01")]

/-- A caller without a name, no target at all and a call without a date. -/
theorem textField?_of_blank_name :
    usable? unnamed ["name", "displayName"] = some "Ada" ∧
    textField? unnamed ["name", "displayName"] = none ∧
    (callerFacts unnamed).field? "name" = none ∧
    mergeTargets (.obj [("callerTargets", .arr [hush])]) = .null ∧
    (callHistory (.arr [duskCall])).field? "lastCallAt" = some .null := by
  have alone : newestFirst (Json.arr [duskCall]).items = [duskCall] := List.mergeSort_singleton _
  refine ⟨rfl, rfl, rfl, rfl, ?_⟩
  rw [(callHistory_dates _).1, alone]
  rfl

end Prompt.Transform
