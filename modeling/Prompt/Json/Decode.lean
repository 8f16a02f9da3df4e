import Prompt.Json.Writer
import Prompt.Text.Quoted

/-!
Decoding JSON values into typed records. A record is written as an object of its fields or as the
array of them in declaration order. Of several faults the first one met is reported: entries are
checked in the order in which they stand, and missing fields come last.
-/

namespace Prompt.Json

inductive DecodeError where
  | missingField (field : String)
  | invalidType (found : Json) (expected : String)
  | invalidValue (found : Json) (expected : String)
  | invalidLength (length : Nat) (expected : String)
  | unknownVariant (variant : String) (known : List String)
  | noAlternative (type : String)

def describe : Json → String
  | null => "null"
  | bool b => "boolean `" ++ toString b ++ "`"
  | num (.int n) => "integer `" ++ toString n ++ "`"
  | num (.double x) => "floating point `" ++ String.ofList (Number.writeDouble x) ++ "`"
  | str s => "string " ++ Text.quoted s
  | arr _ => "sequence"
  | obj _ => "map"

def oneOf (names : List String) : String :=
  match names.map fun n => "`" ++ n ++ "`" with
  | [] => "there are no variants"
  | [a] => "expected " ++ a
  | [a, b] => "expected " ++ a ++ " or " ++ b
  | all => "expected one of " ++ ", ".intercalate all

def DecodeError.message : DecodeError → String
  | missingField f => "missing field `" ++ f ++ "`"
  | invalidType found expected => "invalid type: " ++ found.describe ++ ", expected " ++ expected
  | invalidValue found expected => "invalid value: " ++ found.describe ++ ", expected " ++ expected
  | invalidLength n expected => "invalid length " ++ toString n ++ ", expected " ++ expected
  | unknownVariant v known => "unknown variant `" ++ v ++ "`, " ++ oneOf known
  | noAlternative type => "data did not match any variant of untagged enum " ++ type

abbrev Decoder (α : Type) := Json → Except DecodeError α

namespace Decoder

def value : Decoder Json := .ok

def string : Decoder String
  | str s => .ok s
  | j => .error (.invalidType j "a string")

def bool : Decoder Bool
  | .bool b => .ok b
  | j => .error (.invalidType j "a boolean")

def float : Decoder Float
  | num n => .ok n.toFloat
  | j => .error (.invalidType j "f64")

/-- A whole number from `least` to `greatest`; `type` is the name of that range. -/
def intBetween (least greatest : Int) (type : String) : Decoder Int
  | num (.int n) =>
    if least ≤ n ∧ n ≤ greatest then .ok n else .error (.invalidValue (num (.int n)) type)
  | j => .error (.invalidType j type)

def int32 : Decoder Int := intBetween (-0x80000000) 0x7FFFFFFF "i32"

def byte : Decoder Int := intBetween 0 255 "u8"

def list {α : Type} (item : Decoder α) : Decoder (List α)
  | arr xs => xs.mapM item
  | j => .error (.invalidType j "a sequence")

/-- A missing value may be written as `null`. -/
def optional {α : Type} (item : Decoder α) : Decoder (Option α)
  | null => .ok none
  | j => (item j).map some

def oneOfNames (known : List String) (name : String) : Except DecodeError String :=
  if name ∈ known then .ok name else .error (.unknownVariant name known)

def identifier (known : List String) : Decoder String
  | str name => oneOfNames known name
  | j => .error (.invalidType j "variant identifier")

/-- One of several names, written as a string or as the only key of an object around `null`. -/
def variant (known : List String) : Decoder String
  | str name => oneOfNames known name
  | obj [(name, inner)] => do
    let name ← oneOfNames known name
    match inner with
    | null => return name
    | inner => throw (.invalidType inner "unit")
  | obj es => .error (.invalidValue (obj es) "map with a single key")
  | j => .error (.invalidType j "string or map")

def names {α : Type} (type : String) (one : String → α) (many : List String → α) : Decoder α
  | str s => .ok (one s)
  | j => match list string j with
    | .ok xs => .ok (many xs)
    | .error _ => .error (.noAlternative type)

end Decoder

structure Field where
  name : String
  required : Bool
  check : Json → Except DecodeError Unit

namespace Field

def mandatory {α : Type} (name : String) (decoder : Decoder α) : Field :=
  ⟨name, true, fun j => (decoder j).map fun _ => ()⟩

def defaulted {α : Type} (name : String) (decoder : Decoder α) : Field :=
  ⟨name, false, fun j => (decoder j).map fun _ => ()⟩

end Field

/-- Fields in declaration order against the items of an array from position `i`; `wanted` describes
the whole record. -/
def matchFields (wanted : String) (total : Nat) :
    Nat → List Field → List Json → Except DecodeError (Entries Json)
  | _, [], [] => .ok []
  | _, [], _ :: _ => .error (.invalidLength total "fewer elements in array")
  | i, f :: fields, x :: xs => do
    f.check x
    let rest ← matchFields wanted total (i + 1) fields xs
    return (f.name, x) :: rest
  | i, f :: fields, [] =>
    if f.required then .error (.invalidLength i wanted)
    else matchFields wanted total (i + 1) fields []

/-- Checks an object entry against the field of its name; an unknown entry is left alone. -/
def checkEntry (fields : List Field) (e : String × Json) : Except DecodeError Unit :=
  match fields.find? fun f => f.name == e.1 with
  | some f => f.check e.2
  | none => .ok ()

def elementCount (n : Nat) : String :=
  toString n ++ if n = 1 then " element" else " elements"

def readRecord (type : String) (fields : List Field) : Decoder (Entries Json)
  | obj es => do
    es.forM (checkEntry fields)
    match fields.find? fun f => f.required && !Entries.contains es f.name with
    | some f => .error (.missingField f.name)
    | none => .ok es
  | arr xs =>
    matchFields ("struct " ++ type ++ " with " ++ elementCount fields.length) xs.length 0 fields xs
  | j => .error (.invalidType j ("struct " ++ type))

def need {α : Type} (es : Entries Json) (name : String) (decoder : Decoder α) :
    Except DecodeError α :=
  match es.get? name with
  | some j => decoder j
  | none => .error (.missingField name)

def orElse {α : Type} (es : Entries Json) (name : String) (decoder : Decoder α) (absent : α) :
    Except DecodeError α :=
  match es.get? name with
  | some j => decoder j
  | none => .ok absent

end Prompt.Json
