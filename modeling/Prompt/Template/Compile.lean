import Prompt.Json.Display
import Prompt.Template.Block

/-!
Compiling a template against data. Scoped blocks come first and render their bodies in a scope of
their own; then `if`, `unless`, `each` and plain values, one pass each over the text of the pass
before. Tags that are left over disappear, and blank space is normalized.
-/

namespace Prompt.Template

/-- The fields of the enclosing scope with those of a value on top, and the value itself as `this`. -/
def mergeScope (outer inner : Json) : Json :=
  .obj ((outer.entries.insertAll inner.entries).insert "this" inner)

def keepWhen (kind : BlockKind) (wanted : Bool) (data : Json) (pieces : List Piece) : List Char :=
  replaceBlocks kind
    (fun path body => if Json.isTruthy? (data.resolve? path) = wanted then source body else [])
    pieces

/-- The value that a tag stands for inside a loop, other than those of the enclosing scope. -/
def iterationValue? (item : Json) (index : Nat) (inner : List Char) : Option (List Char) :=
  let key := Text.trim inner
  if key = ['@', 'i', 'n', 'd', 'e', 'x'] then some (toString index).toList
  else if key = ['t', 'h', 'i', 's'] then some item.display
  else (Text.after? ['t', 'h', 'i', 's', '.'] key).map fun field =>
    Json.display? (item.resolve? field)

def bindIteration (body : List Piece) (item : Json) (index : Nat) : List Char :=
  replaceTags (iterationValue? item index) body

def repeatEach (data : Json) (pieces : List Piece) : List Char :=
  replaceBlocks .forEach
    (fun path body => match data.resolve? path with
      | some (.arr items) =>
        ['\n'].intercalate (items.zipIdx.map fun item => bindIteration body item.1 item.2)
      | _ => [])
    pieces

def interpolate (data : Json) (pieces : List Piece) : List Char :=
  replaceTags (fun inner => (Directive.path? inner).map fun path =>
    Json.display? (data.resolve? path)) pieces

def expandFlat (data : Json) (text : List Char) : List Char :=
  let text := keepWhen .whenTrue true data (scan text)
  let text := keepWhen .whenFalse false data (scan text)
  let text := repeatEach data (scan text)
  interpolate data (scan text)

/-- All passes but the cleaning. A scoped block over a list renders its body once for each element, over
an object once; over another true value its body stays as it is, for the passes that follow. -/
def expand (data : Json) (pieces : List Piece) : List Char :=
  expandFlat data ((blocks (Directive.opening? .within) pieces).attach.flatMap fun segment =>
    match _h : segment.val with
    | .piece p => p.source
    | .block _ o body =>
      match data.resolve? o.path with
      | some (.arr items) => items.flatMap fun item => expand (mergeScope data item) body
      | some (.obj fields) =>
        if fields.isEmpty then [] else expand (mergeScope data (.obj fields)) body
      | value => if Json.isTruthy? value then source body else [])
termination_by pieces.length
decreasing_by
  all_goals exact length_body_lt (_h ▸ segment.property)

/-- Cuts runs of line breaks to two, `seen` of which precede. -/
def limitBreaks (seen : Nat) : List Char → List Char
  | [] => []
  | c :: rest =>
    if c = '\n' then
      if seen < 2 then c :: limitBreaks (seen + 1) rest else limitBreaks seen rest
    else c :: limitBreaks 0 rest

def normalize (text : List Char) : List Char := Text.trim (limitBreaks 0 text)

def eraseTags (pieces : List Piece) : List Char := replaceTags (fun _ => some []) pieces

def compileChars (template : List Char) (data : Json) : List Char :=
  normalize (eraseTags (scan (expand data (scan template))))

def compile (template : String) (data : Json) : String :=
  String.ofList (compileChars template.toList data)

end Prompt.Template
