import Prompt.Run.Activation
import Prompt.Section.Default
import Prompt.Section.Schema

/-!
What a run is configured with. Every setting has a default. As JSON a configuration is a record whose
fields may all be left out; in a file its section list is checked against the schema of section lists.
-/

namespace Prompt

structure Config where
  subjectKey : String := "caller"
  historySource : String := "recentCalls"
  memorySource : String := "memories"
  /-- Output fields that begin with this stay out of the document; empty means that all stay in. -/
  privateStart : String := "_"
  unknownCondition : UnknownPolicy := .failClosed
  validateOnLoad : Bool := true
  /-- Without a list the default sections run. -/
  sections : Option (List Section) := none

namespace Config

def resolvedSections (c : Config) : List Section := c.sections.getD Section.defaults

def toJson (c : Config) : Json :=
  .obj ([("subjectKey", .str c.subjectKey), ("historySource", .str c.historySource),
      ("memorySource", .str c.memorySource), ("privatePrefix", .str c.privateStart),
      ("unknownCondition", .str c.unknownCondition.name),
      ("validateOnLoad", .bool c.validateOnLoad)] ++
    (c.sections.map fun ss => ("sections", Section.listToJson ss)).toList)

def fields : List Json.Field :=
  [.defaulted "subjectKey" .string, .defaulted "historySource" .string,
    .defaulted "memorySource" .string, .defaulted "privatePrefix" .string,
    .defaulted "unknownCondition" UnknownPolicy.ofJson, .defaulted "validateOnLoad" .bool,
    .defaulted "sections" (.optional (.list Section.ofJson))]

def ofJson : Json.Decoder Config := fun j => do
  let es ← Json.readRecord "ComposerConfig" fields j
  let base : Config := {}
  return {
    subjectKey := ← Json.orElse es "subjectKey" .string base.subjectKey
    historySource := ← Json.orElse es "historySource" .string base.historySource
    memorySource := ← Json.orElse es "memorySource" .string base.memorySource
    privateStart := ← Json.orElse es "privatePrefix" .string base.privateStart
    unknownCondition :=
      ← Json.orElse es "unknownCondition" UnknownPolicy.ofJson base.unknownCondition
    validateOnLoad := ← Json.orElse es "validateOnLoad" .bool base.validateOnLoad
    sections := ← Json.orElse es "sections" (.optional (.list Section.ofJson)) none }

def splitSections : Json → Json × Option Json
  | .obj es => (.obj (Entries.remove es "sections"), Entries.get? es "sections")
  | j => (j, none)

/-- Reads the text of a configuration file. The list under `sections` is read first, and only there a
list can stand. -/
def read (text : String) : Except Section.LoadError Config := do
  let j ← (Json.read text).mapError .syntactic
  let (rest, list) := splitSections j
  let sections ← match list with
    | some l => (Section.listOfJson l).map some
    | none => pure none
  let config ← (ofJson rest).mapError .undecodable
  return { config with sections }

end Config

end Prompt
