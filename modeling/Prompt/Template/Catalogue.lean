import Prompt.Json.Decode
import Prompt.Template.Compile

/-!
Catalogues of templates. A template may be tied to an attribute; for a scored attribute the first
template that applies, by priority and then by place, and whose text is not blank gives the fragment.
-/

namespace Prompt.Template

structure Entry where
  id : String
  /-- The attribute that the template is for; without one it is for every attribute. -/
  attributeId : Option String := none
  /-- Lower goes first. -/
  priority : Int := 0
  template : String

structure Fragment where
  id : String
  templateId : String
  text : String
  template : String
  values : Json

namespace Entry

def appliesTo (e : Entry) (id : String) : Bool := e.attributeId.all fun a => a == id

def render? (e : Entry) (id : String) (data : Json) : Option Fragment :=
  let text := compile e.template data
  if Text.hasInk text then some ⟨id, e.id, text, e.template, data⟩ else none

def fields : List Json.Field :=
  [.mandatory "id" .string, .defaulted "attribute" (.optional .string),
    .defaulted "priority" .int32, .mandatory "template" .string]

def ofJson : Json.Decoder Entry := fun j => do
  let es ← Json.readRecord "FragmentTemplate" fields j
  return {
    id := ← Json.need es "id" .string
    attributeId := ← Json.orElse es "attribute" (.optional .string) none
    priority := ← Json.orElse es "priority" .int32 0
    template := ← Json.need es "template" .string }

def toJson (e : Entry) : Json :=
  .obj ([("id", .str e.id)] ++ (e.attributeId.map fun a => ("attribute", .str a)).toList ++
    [("priority", .num (.int e.priority)), ("template", .str e.template)])

end Entry

def Fragment.toJson (f : Fragment) : Json :=
  .obj [("id", .str f.id), ("templateId", .str f.templateId), ("text", .str f.text),
    ("template", .str f.template), ("values", f.values)]

/-- Templates by ascending priority; those of one priority stay in order. -/
def byPriority (catalogue : List Entry) : List Entry :=
  catalogue.mergeSort fun a b => a.priority ≤ b.priority

def renderFirst? (id : String) (candidates : List Entry) (data : Json) : Option Fragment :=
  (byPriority candidates).findSome? fun e => e.render? id data

def renderAll (catalogue : List Entry) (data : Json) : List Fragment :=
  (byPriority catalogue).filterMap fun e => renderFirst? e.id [e] data

/-! ### Scored attributes -/

structure Thresholds where
  high : Float := 0.65
  low : Float := 0.35

inductive Level where
  | high
  | medium
  | low
  deriving DecidableEq

def Level.name : Level → String
  | high => "high"
  | medium => "medium"
  | low => "low"

/-- Both bounds belong to the outer levels; high goes first. -/
def Thresholds.level (t : Thresholds) (score : Float) : Level :=
  if t.high ≤ score then .high else if score ≤ t.low then .low else .medium

structure Attribute where
  id : String
  name : String
  value : Float

namespace Attribute

def ofJson : Json.Decoder Attribute := fun j => do
  let es ← Json.readRecord "ScoredAttribute"
    [.mandatory "id" .string, .mandatory "name" .string, .mandatory "value" .float] j
  return ⟨← Json.need es "id" .string, ← Json.need es "name" .string, ← Json.need es "value" .float⟩

/-- The data that templates see of an attribute: the score, also as text of two places, and its
level. -/
def data (a : Attribute) (t : Thresholds) : Json :=
  let level := t.level a.value
  .obj [("id", .str a.id), ("name", .str a.name),
    ("value", .str (String.ofList ((Decimal.Binary.ofFloat a.value).fixed 2))),
    ("score", .ofFloat a.value), ("level", .str level.name), ("high", .bool (level = .high)),
    ("medium", .bool (level = .medium)), ("low", .bool (level = .low))]

end Attribute

def Thresholds.ofJson : Json.Decoder Thresholds := fun j => do
  let es ← Json.readRecord "LevelThresholds" [.mandatory "high" .float, .mandatory "low" .float] j
  return ⟨← Json.need es "high" .float, ← Json.need es "low" .float⟩

def attributeFragment? (catalogue : List Entry) (t : Thresholds) (a : Attribute) :
    Option Fragment :=
  renderFirst? a.id (catalogue.filter fun e => e.appliesTo a.id) (a.data t)

/-- At most one fragment for each attribute, in the order of attributes. -/
def attributeFragments (attributes : List Attribute) (catalogue : List Entry) (t : Thresholds) :
    List Fragment :=
  attributes.filterMap (attributeFragment? catalogue t)

end Prompt.Template
