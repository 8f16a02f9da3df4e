import Prompt.Text.Blank
import Prompt.Template.Tag

/-!
What the inner text of a tag asks for: a value, the opening of a block, or its close. The keywords
`if`, `unless` and `each` open blocks over a path; any other word opens a block scoped to the value
of that name.
-/

namespace Prompt.Template

/-- The blocks of the language. A scoped block is closed by its own name, the others by their
keyword. -/
inductive BlockKind where
  | within
  | whenTrue
  | whenFalse
  | forEach
  deriving DecidableEq

structure Opening where
  kind : BlockKind
  path : List Char
  deriving DecidableEq

def BlockKind.keyword? : BlockKind → Option (List Char)
  | within => none
  | whenTrue => some ['i', 'f']
  | whenFalse => some ['u', 'n', 'l', 'e', 's', 's']
  | forEach => some ['e', 'a', 'c', 'h']

def Opening.closeName (o : Opening) : List Char := o.kind.keyword?.getD o.path

def isReserved (name : List Char) : Bool :=
  [BlockKind.whenTrue, .whenFalse, .forEach].any fun k => k.keyword? == some name

def isWordChar (c : Char) : Bool := c.isAlphanum || c = '_'

/-- Text that names a value: letters, digits, `_`, `.` and `@` of ASCII. -/
def isVariable (s : List Char) : Bool :=
  !s.isEmpty && s.all fun c => isWordChar c || c = '.' || c = '@'

/-- Words of ASCII letters, digits and `_`, separated by dots. -/
def isBlockName (s : List Char) : Bool :=
  (Text.splitOnChar '.' s).all fun word => !word.isEmpty && word.all isWordChar

def pathAfter? (keyword rest : List Char) : Option (List Char) :=
  match Text.after? keyword rest with
  | some (c :: more) =>
    let path := Text.trim (c :: more)
    if Text.isBlank c && isVariable path then some path else none
  | _ => none

def opening? (rest : List Char) : Option Opening :=
  let keyed := [BlockKind.whenTrue, .whenFalse, .forEach].findSome? fun k =>
    (k.keyword?.bind fun keyword => pathAfter? keyword rest).map fun path => Opening.mk k path
  match keyed with
  | some o => some o
  | none => if isBlockName rest && !isReserved rest then some ⟨.within, rest⟩ else none

inductive Directive where
  | close (name : List Char)
  | opens (o : Opening)
  | variable (path : List Char)
  | malformed
  deriving DecidableEq

/-- Classifies the inner text of a tag. The signs `/` and `#` count only as its first character. -/
def Directive.of (inner : List Char) : Directive :=
  match inner with
  | '/' :: name => .close name
  | '#' :: rest => match opening? rest with
    | some o => .opens o
    | none => .malformed
  | _ => if isVariable (Text.trim inner) then .variable (Text.trim inner) else .malformed

def Directive.opening? (kind : BlockKind) (inner : List Char) : Option Opening :=
  match Directive.of inner with
  | .opens o => if o.kind = kind then some o else none
  | _ => none

def Directive.path? (inner : List Char) : Option (List Char) :=
  match Directive.of inner with
  | .variable path => some path
  | _ => none

end Prompt.Template
