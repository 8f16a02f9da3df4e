import Prompt.Run.Loaded
import Prompt.Section.Basic

/-!
What a section can see when it runs: the loaded data, the history of the subject, and the outputs of
the sections before it.
-/

namespace Prompt

structure Context where
  loaded : Loaded
  subjectKey : String
  history : History := {}
  outputs : Entries Json := []

namespace Context

def subject (c : Context) : Json := c.loaded.subject

def output? (c : Context) (key : String) : Option Json := c.outputs.get? key

def subjectPath? (name : String) : Option (List Char) :=
  Text.after? ['s', 'u', 'b', 'j', 'e', 'c', 't', '.'] name.toList

/-- A named input: the subject, a path into it, or a fragment. A value of `null` counts as missing. -/
def source? (c : Context) (name : String) : Option Json :=
  let value :=
    if name = c.subjectKey then some c.subject
    else match subjectPath? name with
      | some path => c.subject.resolve? path
      | none => c.loaded.fragment? name
  value.filter fun v => !v.isNull

def lookup? (c : Context) (name : String) : Option Json :=
  ((c.output? name).filter fun v => !v.isNull).or (c.source? name)

/-- Everything as one object: the fragments, the subject, and on top the outputs. -/
def snapshot (c : Context) : Json :=
  .obj ((c.loaded.fragments.insert c.subjectKey c.subject).insertAll c.outputs)

/-- The grouping of a subject that holds only its id, for a name of one step behind `subject.`. -/
def derivedGrouping? (c : Context) (name : String) : Option Json :=
  match subjectPath? name with
  | none => none
  | some relation =>
    if relation.contains '.' then none
    else (groupingId? c.subject (String.ofList relation)).map fun id => .obj [("id", .str id)]

def inputValue (c : Context) (name : String) : Json :=
  ((c.source? name).or (c.derivedGrouping? name)).getD .null

/-- The input of a section. Several names give an object of their values. -/
def resolveInput (c : Context) (source : Source) : Json :=
  if source.isWhole then c.snapshot
  else match source with
    | .single name => c.inputValue name
    | .several names => .obj (Entries.ofList (names.map fun n => (n, c.inputValue n)))

/-- There is data under a name; an empty array is none. -/
def hasData (c : Context) (name : String) : Bool :=
  if name = wholeContext then true
  else match c.source? name with
    | none => (c.derivedGrouping? name).isSome
    | some (.arr items) => !items.isEmpty
    | some _ => true

def store (c : Context) (key : String) (value : Json) : Context :=
  { c with outputs := c.outputs.insert key value }

end Context

end Prompt
