import Prompt.Json.Reader
import Prompt.Json.Schema
import Prompt.Section.Codec

/-!
Reading section lists. A list stands on its own or under `sections` in an object. It is checked
against a schema first, so that mistakes are reported with their place, and then decoded.
-/

namespace Prompt.Section

/-! ### The schema -/

open Json.Shape in
def conditionShape : Json.Shape :=
  object ["condition"]
    [("condition", string), ("relation", optionalString), ("scope", optionalString),
      ("sources", list true string), ("spec", optionalString)]

open Json.Shape in
def namesShapes : List Json.Shape := [string, list false string]

open Json.Shape in
def fallbackShape : Json.Shape :=
  object [] [("action", either "oneOf" (FallbackAction.all.map fun a => exactly a.name)),
    ("value", anything)]

open Json.Shape in
def shape : Json.Shape :=
  object ["dataSource", "id", "outputKey"]
    [("activateWhen", conditionShape), ("dataSource", either "anyOf" namesShapes),
      ("dependsOn", list false string), ("fallback", fallbackShape), ("id", string),
      ("outputKey", string), ("priority", integer),
      ("transform", either "anyOf" [either "anyOf" namesShapes, none])]

open Json.Shape in
def listShape : Json.Shape := list false shape

/-! ### The schema as a document -/

private def described (text : String) (fields : List (String × Json)) : Json :=
  .obj (("description", .str text) :: fields)

private def typed (type : String) : String × Json := ("type", .str type)

private def reference (name : String) : Json := .obj [("$ref", .str ("#/definitions/" ++ name))]

private def stringList : List (String × Json) := [typed "array", ("items", .obj [typed "string"])]

private def optionalText (text : String) : Json :=
  described text [("type", .ofStrings ["string", "null"])]

private def conditionDocument : Json :=
  described "Wire form of an [`ActivationCondition`]." [typed "object",
    ("required", .ofStrings ["condition"]),
    ("properties", .obj [
      ("condition", described "Condition tag, e.g. `\"dataExists\"`." [typed "string"]),
      ("relation", optionalText "`entityHasRelation`: relation field on the subject record."),
      ("scope", optionalText "`isFirstOccurrenceInScope`: grouping to scope the check to."),
      ("sources", described
        "`dataExists`: sources to check instead of the section's data source."
        [("type", .ofStrings ["array", "null"]), ("items", .obj [typed "string"])]),
      ("spec", optionalText "`specResolved`: fragment holding the resolved spec.")])]

private def namesDocument (text : String) : Json :=
  described text [("anyOf", .arr [.obj [typed "string"], .obj stringList])]

private def fallbackDocument : Json :=
  .obj [typed "object", ("properties", .obj [
    ("action", .obj [("default", .str "null"), ("allOf", .arr [reference "FallbackAction"])]),
    ("value", described "Default stored by `emptyObject` instead of `\x7b\x7d`." [])])]

private def actionDocument : Json :=
  let choice (text name : String) : Json :=
    described text [typed "string", ("enum", .ofStrings [name])]
  described "What an inactive section leaves in the document." [("oneOf", .arr [
    choice "Key present with value `null`." "null",
    choice "Key present with the configured value, or `\x7b\x7d`." "emptyObject",
    choice "Key absent." "omit",
    choice "Same as `Omit`." "skip"])]

private def sectionDocument : Json :=
  described "One step of the composition pipeline." [typed "object",
    ("required", .ofStrings ["dataSource", "id", "outputKey"]),
    ("properties", .obj [
      ("activateWhen", .obj [("default", .obj [("condition", .str "always")]),
        ("allOf", .arr [reference "ConditionSpec"])]),
      ("dataSource", described "Loaded fragment name(s), or `\"_all\"` for the whole context."
        [("allOf", .arr [reference "DataSource"])]),
      ("dependsOn", .obj stringList),
      ("fallback", .obj [("default", .obj [("action", .str "null")]),
        ("allOf", .arr [reference "Fallback"])]),
      ("id", described "Unique section id, referenced by `dependsOn`." [typed "string"]),
      ("outputKey", described "Key the result is stored and emitted under." [typed "string"]),
      ("priority", described
        "Authoring hint only. Execution order comes from list order plus `depends_on`."
        [("default", .ofNat 0), typed "integer", ("format", .str "int32")]),
      ("transform", .obj [("anyOf", .arr [reference "TransformSpec", .obj [typed "null"]])])])]

def schemaDocument : Json :=
  .obj [("$schema", .str "http://json-schema.org/draft-07/schema#"),
    ("title", .str "Array_of_SectionDefinition"), typed "array",
    ("items", reference "SectionDefinition"),
    ("definitions", .obj [("ConditionSpec", conditionDocument),
      ("DataSource", namesDocument "One input name or several."),
      ("Fallback", fallbackDocument), ("FallbackAction", actionDocument),
      ("SectionDefinition", sectionDocument),
      ("TransformSpec", namesDocument "A single transform name or an ordered chain.")])]

/-! ### Reading -/

inductive LoadError where
  | unreadable (reason : String)
  | syntactic (error : Json.ReadError)
  | mismatched (violations : List Json.Violation)
  | undecodable (error : Json.DecodeError)

def LoadError.message : LoadError → String
  | unreadable reason => reason
  | syntactic error => error.message
  | mismatched violations =>
    "section list does not match the schema:\n" ++
      "\n".intercalate (violations.map fun v => "  - " ++ v.message)
  | undecodable error => error.message

/-- The sections of a list; the schema is checked on the whole list before anything is decoded. -/
def listOfJson (j : Json) : Except LoadError (List Section) :=
  match listShape.violations [] j with
  | [] => (Json.Decoder.list ofJson j).mapError .undecodable
  | violations => .error (.mismatched violations)

/-- The list in a document: the member `sections` of an object that has one, else the document. -/
def listIn (j : Json) : Json := (j.field? "sections").getD j

def readList (text : String) : Except LoadError (List Section) := do
  let j ← (Json.read text).mapError .syntactic
  listOfJson (listIn j)

end Prompt.Section
