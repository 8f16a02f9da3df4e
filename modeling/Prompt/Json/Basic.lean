import Prompt.Entries
import Prompt.Text.Measure

/-!
JSON values. Objects keep the order of their entries, and whole numbers stay apart from doubles. Here
also: how a value is looked into, by field or by path, and when it counts as true.
-/

namespace Prompt

/-- A whole number within 64 bits (signed or unsigned), or a finite double. -/
inductive Number where
  | int (n : Int)
  | double (x : Float)

inductive Json where
  | null
  | bool (b : Bool)
  | num (n : Number)
  | str (s : String)
  | arr (items : List Json)
  | obj (entries : List (String × Json))

instance : Inhabited Json := ⟨.null⟩

namespace Number

def magnitude (n : Nat) : Float := (UInt64.ofNat n).toFloat

def toFloat : Number → Float
  | int n => if n < 0 then -magnitude n.natAbs else magnitude n.natAbs
  | double x => x

end Number

namespace Json

def ofNat (n : Nat) : Json := num (.int n)

/-- A computed double; one that is not finite has no JSON text and becomes `null`. -/
def ofFloat (x : Float) : Json := if x.isFinite then num (.double x) else null

def ofStrings (xs : List String) : Json := arr (xs.map str)

def ofString? (s : Option String) : Json := (s.map str).getD null

def asString? : Json → Option String
  | str s => some s
  | _ => none

def asFloat? : Json → Option Float
  | num n => some n.toFloat
  | _ => none

def asItems? : Json → Option (List Json)
  | arr xs => some xs
  | _ => none

def asEntries? : Json → Option (Entries Json)
  | obj es => some es
  | _ => none

def items (j : Json) : List Json := j.asItems?.getD []

def entries (j : Json) : Entries Json := j.asEntries?.getD []

def isObject (j : Json) : Bool := j.asEntries?.isSome

def isArray (j : Json) : Bool := j.asItems?.isSome

def isNull : Json → Bool
  | null => true
  | _ => false

def field? (j : Json) (key : String) : Option Json := j.entries.get? key

/-- A value counts as true unless it is `null`, `false`, zero, or empty. -/
def isTruthy : Json → Bool
  | null => false
  | bool b => b
  | num n => n.toFloat != 0.0
  | str s => s != ""
  | arr xs => !xs.isEmpty
  | obj es => !es.isEmpty

def isTruthy? (j : Option Json) : Bool := j.any isTruthy

def step? (j : Json) (segment : List Char) : Option Json :=
  match j with
  | obj es => Entries.get? es (String.ofList segment)
  | arr xs => (Text.readPosition? segment).bind fun i => xs[i]?
  | _ => none

def walk? (j : Json) : List (List Char) → Option Json
  | [] => some j
  | segment :: rest => (j.step? segment).bind fun next => next.walk? rest

/-- The value at the end of a path, whose steps are separated by dots. The empty path leads nowhere. -/
def resolve? (j : Json) (path : List Char) : Option Json :=
  if path.isEmpty then none else j.walk? (Text.splitOnChar '.' path)

@[simp] theorem field?_obj (es : Entries Json) (key : String) :
    (obj es).field? key = es.get? key := rfl

@[simp] theorem isTruthy?_none : isTruthy? none = false := rfl

@[simp] theorem isTruthy?_some (j : Json) : isTruthy? (some j) = j.isTruthy := rfl

end Json

end Prompt
