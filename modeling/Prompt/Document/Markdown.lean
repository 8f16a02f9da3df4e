import Prompt.Json.Writer
import Prompt.Section.Check
import Prompt.Transform.Fields

/-!
Documents as Markdown: a preamble and blocks under headings, with one blank line between them. A block
without content is left out, heading included.
-/

namespace Prompt

structure Markdown where
  blocks : List String := []
  level : Nat := 2

namespace Markdown

def opening (preamble : String) : List String := if preamble = "" then [] else [preamble]

def start (preamble : String) : Markdown := { blocks := opening preamble }

/-- Headings from here on have this level, or the nearest one from 1 to 6. -/
def withLevel (m : Markdown) (level : Nat) : Markdown := { m with level := min 6 (max 1 level) }

def block? (level : Nat) (heading content : String) : Option String :=
  if content = "" then none
  else some (String.ofList (List.replicate level '#') ++ " " ++ heading ++ "\n\n" ++ content)

def append (m : Markdown) (heading content : String) : Markdown :=
  { m with blocks := m.blocks ++ (block? m.level heading content).toList }

def joined (blocks : List String) : String := "\n\n".intercalate blocks

def text (m : Markdown) : String := joined m.blocks

/-! ### Values -/

def scalar : Json → String
  | .str s => s
  | j => j.compact

def isFlat (es : Entries Json) : Bool := es.all fun e => !e.2.isObject && !e.2.isArray

def present (es : Entries Json) : Entries Json := es.filter fun e => !e.2.isNull

/-- A value on one line: the fields of a flat object side by side, what is deeper as JSON. -/
def inline : Json → String
  | .obj es =>
    if isFlat es then ", ".intercalate ((present es).map fun e => e.1 ++ ": " ++ scalar e.2)
    else (Json.obj es).compact
  | j => scalar j

/-- A field of an object as a list item. An array without objects becomes a list of its own. -/
def field (e : String × Json) : String :=
  let label := "- **" ++ e.1 ++ "**:"
  match e.2 with
  | .arr items =>
    if items.isEmpty || items.any Json.isObject then label ++ " " ++ inline e.2
    else label ++ "\n" ++ "\n".intercalate (items.map fun i => "  - " ++ inline i)
  | j => label ++ " " ++ inline j

def body : Json → String
  | .null => ""
  | .arr items => "\n".intercalate (items.map fun i => "- " ++ inline i)
  | .obj es => "\n".intercalate ((present es).map field)
  | j => scalar j

/-! ### Documents -/

def preamble (document : Entries Json) : String :=
  ((document.get? summaryKey).bind Json.asString?).getD ""

/-- The block of an entry. The summary and the version have none. -/
def entryBlock? (e : String × Json) : Option String :=
  if e.1 = summaryKey ∨ e.1 = versionKey then none
  else block? 2 (Transform.humanize e.1) (body e.2)

def render (document : Entries Json) : String :=
  joined (opening (preamble document) ++ document.filterMap entryBlock?)

end Markdown

end Prompt
