import Prompt.Run.Context
import Prompt.Template.Catalogue
import Prompt.Transform.Fields

/-!
Transforms of behaviour targets: merging those of the system with those of a caller, and putting targets
and traits into sentences for the voice.
-/

namespace Prompt.Transform

structure Target where
  id : String
  name : String
  value : Float
  layer : String

namespace Target

def ofJson? (layer : String) (j : Json) : Option Target := do
  let id ← textField? j ["parameterId", "id"]
  let value ← numberField? j ["targetValue", "value"]
  return ⟨id, (textField? j ["name"]).getD (humanize id), value, layer⟩

def toJson (t : Target) : Json :=
  .obj [("parameterId", .str t.id), ("name", .str t.name), ("value", .ofFloat t.value),
    ("source", .str t.layer)]

def merge (targets : List Target) (new : Target) : List Target :=
  match targets with
  | [] => [new]
  | old :: rest => if old.id = new.id then new :: rest else old :: merge rest new

end Target

def targetLayers (j : Json) : List Target :=
  (listField j "behaviorTargets").filterMap (Target.ofJson? "system") ++
    (listField j "callerTargets").filterMap (Target.ofJson? "caller")

/-- One target for each id; of several the last holds, and a caller goes before the system. -/
def mergeTargets (j : Json) : Json :=
  match (targetLayers j).foldl Target.merge [] with
  | [] => .null
  | merged =>
    .obj [("targets", .arr (merged.map Target.toJson)), ("count", .ofNat merged.length),
      ("_byParameter", .obj (merged.map fun t => (t.id, .ofFloat t.value)))]

/-! ### Guidance for the voice -/

def voiceTemplates : List Template.Entry :=
  [{ id := "voice-high"
     template := "\x7b\x7b#if high\x7d\x7dLean into \x7b\x7bname\x7d\x7d: aim for \x7b\x7bvalue\x7d\x7d and make it a clear feature of how you speak.\x7b\x7b/if\x7d\x7d" },
   { id := "voice-low"
     template := "\x7b\x7b#if low\x7d\x7dKeep \x7b\x7bname\x7d\x7d understated (target \x7b\x7bvalue\x7d\x7d).\x7b\x7b/if\x7d\x7d"
     priority := 1 },
   { id := "voice-medium"
     template := "\x7b\x7b#if medium\x7d\x7dUse a moderate level of \x7b\x7bname\x7d\x7d (\x7b\x7bvalue\x7d\x7d).\x7b\x7b/if\x7d\x7d"
     priority := 2 }]

/-- The loaded templates, if they are a list of templates that is not empty. -/
def voiceCatalogue (c : Context) : List Template.Entry :=
  match c.source? "voiceTemplates" with
  | none => voiceTemplates
  | some j =>
    match Json.Decoder.list Template.Entry.ofJson j with
    | .ok [] => voiceTemplates
    | .ok catalogue => catalogue
    | .error _ => voiceTemplates

def targetAttribute? (j : Json) : Option Template.Attribute := do
  let id ← textField? j ["parameterId"]
  let value ← numberField? j ["value"]
  return ⟨id, Text.lowercased ((textField? j ["name"]).getD (humanize id)), value⟩

/-- Adds the traits of a personality that no target and no earlier trait names. -/
def addTraits (attributes : List Template.Attribute) (scores : Entries Json) :
    List Template.Attribute :=
  scores.foldl (fun attributes e =>
    if attributes.any fun a => a.id == e.1 then attributes
    else match e.2.asFloat? with
      | some value => attributes ++ [⟨e.1, Text.lowercased (humanize e.1), value⟩]
      | none => attributes) attributes

def voiceAttributes (c : Context) : List Template.Attribute :=
  let targets := ((c.output? "behaviorTargets").map fun t => listField t "targets").getD []
  let scores := ((c.output? "personality").bind fun p => p.field? "_scores").map Json.entries
  addTraits (targets.filterMap targetAttribute?) (scores.getD [])

def voiceGuidance (c : Context) : Json :=
  match voiceAttributes c with
  | [] => .null
  | attributes =>
    let fragments := Template.attributeFragments attributes (voiceCatalogue c) {}
    .obj [("guidance", .ofStrings (fragments.map Template.Fragment.text)),
      ("count", .ofNat fragments.length),
      ("_fragments", .arr (fragments.map Template.Fragment.toJson))]

end Prompt.Transform
