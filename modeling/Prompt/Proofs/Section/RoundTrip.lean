import Prompt.Proofs.Section.Accepted

/-!
# Sections written and decoded

Decoding what was written for a section gives the section back, except that a fallback value `null` comes back
as no value at all (`ofJson_toJson`).
-/

namespace Prompt
open Json

/-! ### Names -/

theorem Source.ofJson_toJson (s : Source) : Source.ofJson s.toJson = .ok s := by
  cases s with
  | single name => rfl
  | several names => exact names_ofStrings _ _ _ names

theorem Chain.optional_toJson (t : Chain) : Decoder.optional Chain.ofJson t.toJson = .ok (some t) := by
  cases t with
  | one name => rfl
  | many names => exact optional_of_ok nofun (names_ofStrings _ _ _ names)

/-! ### Conditions -/

namespace ConditionRecord

theorem field?_toJson (r : ConditionRecord) :
    r.toJson.field? "condition" = some (.str r.tag) ∧
      r.toJson.field? "sources" = r.sources.map .ofStrings ∧ r.toJson.field? "spec" = r.spec.map .str ∧
      r.toJson.field? "relation" = r.relation.map .str ∧ r.toJson.field? "scope" = r.scope.map .str := by
  simp [toJson, Entries.get?_append, Entries.get?_optional, Entries.get?]

theorem nodup_keys_toJson (r : ConditionRecord) : r.toJson.entries.keys.Nodup := by
  have within : r.toJson.entries.keys.Sublist ["condition", "sources", "spec", "relation", "scope"] := by
    simp only [toJson, entries, asEntries?, Option.getD_some, Entries.keys_append]
    exact ((((List.Sublist.refl _).append (Entries.keys_optional_sublist _ _ _)).append
      (Entries.keys_optional_sublist _ _ _)).append (Entries.keys_optional_sublist _ _ _)).append
      (Entries.keys_optional_sublist _ _ _)
  exact within.nodup (by decide)

theorem ofJson_toJson (r : ConditionRecord) : ConditionRecord.ofJson r.toJson = .ok r := by
  obtain ⟨tag, sources, spec, relation, scope⟩ := r.field?_toJson
  have strings (xs : List String) : Decoder.optional (.list .string) (.ofStrings xs) = .ok (some xs) :=
    optional_of_ok nofun (list_ofStrings xs)
  exact (Section.conditionRecord_obj r.nodup_keys_toJson).2 ⟨need_of_get? tag rfl,
    orElse_of_map sources strings, orElse_of_map spec fun _ => rfl, orElse_of_map relation fun _ => rfl,
    orElse_of_map scope fun _ => rfl⟩

end ConditionRecord

namespace Condition

def knownTags : List String :=
  ["always", "dataExists", "specResolved", "entityHasRelation", "isFirstOccurrence",
    "isFirstOccurrenceInScope"]

/-- A tag of its own is not one of the known tags. -/
def Proper : Condition → Prop
  | custom tag => tag ∉ knownTags
  | _ => True

theorem ofRecord_unknown {r : ConditionRecord} (unknown : r.tag ∉ knownTags) : ofRecord r = custom r.tag := by
  simp only [knownTags, List.mem_cons, List.not_mem_nil, or_false, not_or] at unknown
  rw [ofRecord]
  split <;> simp_all

theorem proper_ofRecord (r : ConditionRecord) : (ofRecord r).Proper := by
  rw [ofRecord]
  split
  case h_7 => simp_all [Proper, knownTags]
  all_goals trivial

theorem ofRecord_toRecord {c : Condition} (proper : c.Proper) : ofRecord c.toRecord = c := by
  cases c with
  | custom tag => exact ofRecord_unknown proper
  | _ => rfl

theorem ofJson_toJson {c : Condition} (proper : c.Proper) : Condition.ofJson c.toJson = .ok c := by
  rw [toJson, Condition.ofJson, ConditionRecord.ofJson_toJson]
  exact congrArg Except.ok (ofRecord_toRecord proper)

end Condition

/-! ### Fallbacks -/

theorem FallbackAction.ofJson_name (a : FallbackAction) : FallbackAction.ofJson (.str a.name) = .ok a := by
  cases a <;> rfl

namespace Fallback

/-- The value `null` is taken for none. -/
def withoutNull (f : Fallback) : Fallback := { f with value := f.value.filter fun v => !v.isNull }

theorem withoutNull_eq_self_iff {f : Fallback} : f.withoutNull = f ↔ f.value ≠ some .null := by
  obtain ⟨action, _ | v⟩ := f
  · simp [withoutNull]
  · cases v <;> simp [withoutNull, isNull]

theorem field?_toJson (f : Fallback) :
    f.toJson.field? "action" = some (.str f.action.name) ∧ f.toJson.field? "value" = f.value := by
  obtain ⟨action, _ | v⟩ := f <;> simp [toJson, Entries.get?]

theorem nodup_keys_toJson (f : Fallback) : f.toJson.entries.keys.Nodup := by
  have within : f.toJson.entries.keys.Sublist ["action", "value"] := by
    simp only [toJson, entries, asEntries?, Option.getD_some, Entries.keys_append]
    exact (List.Sublist.refl _).append (Entries.keys_optional_sublist _ _ _)
  exact within.nodup (by decide)

theorem optional_value (v : Json) :
    Decoder.optional .value v = .ok ((some v).filter fun v => !v.isNull) := by
  cases v <;> rfl

theorem ofJson_toJson (f : Fallback) : Fallback.ofJson f.toJson = .ok f.withoutNull := by
  obtain ⟨action, value⟩ := f.field?_toJson
  refine (Section.fallback_obj f.nodup_keys_toJson).2 ⟨orElse_of_get? action f.action.ofJson_name, ?_⟩
  obtain ⟨action, _ | v⟩ := f
  · exact orElse_of_missing value
  · exact orElse_of_get? value (optional_value v)

end Fallback

/-! ### Sections -/

namespace Section

/-- The ids that are written; an empty list is left out. -/
def writtenIds? (s : Section) : Option (List String) := if s.dependsOn.isEmpty then none else some s.dependsOn

theorem toJson_eq (s : Section) : s.toJson =
    .obj ([("id", .str s.id), ("outputKey", .str s.outputKey), ("dataSource", s.source.toJson),
        ("activateWhen", s.condition.toJson), ("fallback", s.fallback.toJson)] ++
      (s.transform.map fun t => ("transform", t.toJson)).toList ++
      (s.writtenIds?.map fun ids => ("dependsOn", .ofStrings ids)).toList ++
      [("priority", .num (.int s.priority))]) := by
  rw [toJson, writtenIds?]
  split <;> rfl

theorem field?_toJson (s : Section) :
    s.toJson.field? "id" = some (.str s.id) ∧ s.toJson.field? "outputKey" = some (.str s.outputKey) ∧
      s.toJson.field? "dataSource" = some s.source.toJson ∧
      s.toJson.field? "activateWhen" = some s.condition.toJson ∧
      s.toJson.field? "fallback" = some s.fallback.toJson ∧
      s.toJson.field? "transform" = s.transform.map Chain.toJson ∧
      s.toJson.field? "dependsOn" = s.writtenIds?.map .ofStrings ∧
      s.toJson.field? "priority" = some (.num (.int s.priority)) := by
  simp [toJson_eq, Entries.get?_append, Entries.get?_optional, Entries.get?]

theorem nodup_keys_toJson (s : Section) : s.toJson.entries.keys.Nodup := by
  have within : s.toJson.entries.keys.Sublist ["id", "outputKey", "dataSource", "activateWhen", "fallback",
      "transform", "dependsOn", "priority"] := by
    simp only [toJson_eq, entries, asEntries?, Option.getD_some, Entries.keys_append]
    exact (((List.Sublist.refl _).append (Entries.keys_optional_sublist _ _ _)).append
      (Entries.keys_optional_sublist _ _ _)).append (List.Sublist.refl _)
  exact within.nodup (by decide)

structure Proper (s : Section) : Prop where
  condition : s.condition.Proper
  least : -2 ^ 31 ≤ s.priority
  less : s.priority < 2 ^ 31

/-- The section as it is decoded from what was written for it. -/
def returned (s : Section) : Section := s.withFallback s.fallback.withoutNull

theorem returned_eq_self_iff {s : Section} : s.returned = s ↔ s.fallback.value ≠ some .null := by
  rw [← Fallback.withoutNull_eq_self_iff]
  constructor
  · intro same
    exact congrArg Section.fallback same
  · intro same
    rw [returned, same]
    rfl

theorem ofJson_toJson {s : Section} (proper : s.Proper) : ofJson s.toJson = .ok s.returned := by
  obtain ⟨id, outputKey, source, condition, fallback, transform, dependsOn, priority⟩ := s.field?_toJson
  have ids : orElse s.toJson.entries "dependsOn" (.list .string) [] = .ok s.dependsOn := by
    rw [writtenIds?] at dependsOn
    split at dependsOn
    · next none =>
        rw [orElse_of_missing dependsOn, List.isEmpty_iff.1 none]
    · exact orElse_of_get? dependsOn (list_ofStrings s.dependsOn)
  exact (ofJson_obj s.nodup_keys_toJson).2 ⟨need_of_get? id rfl, need_of_get? outputKey rfl,
    need_of_get? source s.source.ofJson_toJson,
    orElse_of_get? condition (Condition.ofJson_toJson proper.condition),
    orElse_of_get? fallback s.fallback.ofJson_toJson, orElse_of_map transform Chain.optional_toJson, ids,
    orElse_of_get? priority (int32_eq_ok.2 ⟨rfl, proper.least, proper.less⟩)⟩

end Section

end Prompt
