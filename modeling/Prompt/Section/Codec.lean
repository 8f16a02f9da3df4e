import Prompt.Json.Decode
import Prompt.Section.Basic

/-!
Sections as JSON. Writing leaves out what is absent; reading accepts a condition with parameters that
its tag does not use and drops them.
-/

namespace Prompt

namespace Source

def toJson : Source → Json
  | single name => .str name
  | several names => .ofStrings names

def ofJson : Json.Decoder Source := .names "DataSource" single several

end Source

namespace Chain

def toJson : Chain → Json
  | one name => .str name
  | many names => .ofStrings names

def ofJson : Json.Decoder Chain := .names "TransformSpec" one many

end Chain

structure ConditionRecord where
  tag : String
  sources : Option (List String) := none
  spec : Option String := none
  relation : Option String := none
  scope : Option String := none
  deriving DecidableEq

namespace Condition

/-- The condition of a tag; a parameter that it needs and that is absent is empty. -/
def ofRecord (r : ConditionRecord) : Condition :=
  match r.tag with
  | "always" => always
  | "dataExists" => dataExists r.sources
  | "specResolved" => specResolved (r.spec.getD "")
  | "entityHasRelation" => hasRelation (r.relation.getD "")
  | "isFirstOccurrence" => firstOccurrence
  | "isFirstOccurrenceInScope" => firstInScope (r.scope.getD "")
  | tag => custom tag

def toRecord (c : Condition) : ConditionRecord :=
  match c with
  | dataExists sources => { tag := c.tag, sources }
  | specResolved spec => { tag := c.tag, spec := some spec }
  | hasRelation relation => { tag := c.tag, relation := some relation }
  | firstInScope scope => { tag := c.tag, scope := some scope }
  | always | firstOccurrence | custom _ => { tag := c.tag }

end Condition

namespace ConditionRecord

def toJson (r : ConditionRecord) : Json :=
  .obj ([("condition", .str r.tag)] ++
    (r.sources.map fun s => ("sources", .ofStrings s)).toList ++
    (r.spec.map fun s => ("spec", .str s)).toList ++
    (r.relation.map fun s => ("relation", .str s)).toList ++
    (r.scope.map fun s => ("scope", .str s)).toList)

def fields : List Json.Field :=
  [.mandatory "condition" .string, .defaulted "sources" (.optional (.list .string)),
    .defaulted "spec" (.optional .string), .defaulted "relation" (.optional .string),
    .defaulted "scope" (.optional .string)]

def ofJson : Json.Decoder ConditionRecord := fun j => do
  let es ← Json.readRecord "ConditionSpec" fields j
  return {
    tag := ← Json.need es "condition" .string
    sources := ← Json.orElse es "sources" (.optional (.list .string)) none
    spec := ← Json.orElse es "spec" (.optional .string) none
    relation := ← Json.orElse es "relation" (.optional .string) none
    scope := ← Json.orElse es "scope" (.optional .string) none }

end ConditionRecord

namespace Condition

def toJson (c : Condition) : Json := c.toRecord.toJson

def ofJson : Json.Decoder Condition := fun j => (ConditionRecord.ofJson j).map ofRecord

end Condition

namespace FallbackAction

def name : FallbackAction → String
  | null => "null"
  | emptyObject => "emptyObject"
  | leaveOut => "omit"
  | skip => "skip"

def all : List FallbackAction := [null, emptyObject, leaveOut, skip]

def ofJson : Json.Decoder FallbackAction := fun j =>
  (Json.Decoder.variant (all.map name) j).map fun n =>
    (all.find? fun a => a.name == n).getD null

end FallbackAction

namespace Fallback

def toJson (f : Fallback) : Json :=
  .obj ([("action", .str f.action.name)] ++ (f.value.map fun v => ("value", v)).toList)

def ofJson : Json.Decoder Fallback := fun j => do
  let es ← Json.readRecord "Fallback"
    [.defaulted "action" FallbackAction.ofJson, .defaulted "value" (.optional .value)] j
  return {
    action := ← Json.orElse es "action" FallbackAction.ofJson .null
    value := ← Json.orElse es "value" (.optional .value) none }

end Fallback

namespace Section

def toJson (s : Section) : Json :=
  .obj ([("id", .str s.id), ("outputKey", .str s.outputKey), ("dataSource", s.source.toJson),
      ("activateWhen", s.condition.toJson), ("fallback", s.fallback.toJson)] ++
    (s.transform.map fun t => ("transform", t.toJson)).toList ++
    (if s.dependsOn.isEmpty then [] else [("dependsOn", Json.ofStrings s.dependsOn)]) ++
    [("priority", .num (.int s.priority))])

def fields : List Json.Field :=
  [.mandatory "id" .string, .mandatory "outputKey" .string,
    .mandatory "dataSource" Source.ofJson, .defaulted "activateWhen" Condition.ofJson,
    .defaulted "fallback" Fallback.ofJson, .defaulted "transform" (.optional Chain.ofJson),
    .defaulted "dependsOn" (.list .string), .defaulted "priority" .int32]

def ofJson : Json.Decoder Section := fun j => do
  let es ← Json.readRecord "SectionDefinition" fields j
  return {
    id := ← Json.need es "id" .string
    outputKey := ← Json.need es "outputKey" .string
    source := ← Json.need es "dataSource" Source.ofJson
    condition := ← Json.orElse es "activateWhen" Condition.ofJson .always
    fallback := ← Json.orElse es "fallback" Fallback.ofJson {}
    transform := ← Json.orElse es "transform" (.optional Chain.ofJson) none
    dependsOn := ← Json.orElse es "dependsOn" (.list .string) []
    priority := ← Json.orElse es "priority" .int32 0 }

def listToJson (sections : List Section) : Json := .arr (sections.map toJson)

end Section

end Prompt
