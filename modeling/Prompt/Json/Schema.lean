import Prompt.Json.Writer

/-!
Shapes of JSON values, and every place where a value departs from a shape. A value of the wrong type is
reported once and not looked into; an object first reports the keys that it lacks and then its
fields in the order of the shape.
-/

namespace Prompt.Json

inductive Shape where
  | anything
  | string
  | integer
  | list (optional : Bool) (item : Shape)
  | optionalString
  /-- One of the alternatives. The keyword names how the alternatives are combined. -/
  | either (keyword : String) (alternatives : List Shape)
  | exactly (text : String)
  | none
  | object (required : List String) (fields : List (String × Shape))

inductive Mismatch where
  | wrongType (found : Json) (types : List String)
  | missingKey (key : String)
  | noAlternative (found : Json) (keyword : String)

structure Violation where
  place : List String
  mismatch : Mismatch

def quotedNames (names : List String) : String :=
  ", ".intercalate (names.map fun n => "\"" ++ n ++ "\"")

def Mismatch.message : Mismatch → String
  | wrongType found [type] => found.compact ++ " is not of type " ++ quotedNames [type]
  | wrongType found types => found.compact ++ " is not of types " ++ quotedNames types
  | missingKey key => (Json.str key).compact ++ " is a required property"
  | noAlternative found keyword =>
    found.compact ++ " is not valid under any of the schemas listed in the '" ++ keyword ++
      "' keyword"

def Violation.message (v : Violation) : String :=
  String.join (v.place.map fun step => "/" ++ step) ++ ": " ++ v.mismatch.message

/-- A whole number, also when it is written as a double. -/
def isIntegral : Json → Bool
  | num (.int _) => true
  | num (.double x) => x.floor == x
  | _ => false

mutual

def Shape.violations (place : List String) (j : Json) : Shape → List Violation
  | anything => []
  | string => match j with
    | str _ => []
    | _ => [⟨place, .wrongType j ["string"]⟩]
  | integer => if j.isIntegral then [] else [⟨place, .wrongType j ["integer"]⟩]
  | optionalString => match j with
    | str _ => []
    | null => []
    | _ => [⟨place, .wrongType j ["null", "string"]⟩]
  | list optional item => match j with
    | arr xs => (xs.zipIdx.map fun x =>
        item.violations (place ++ [toString x.2]) x.1).flatten
    | j => if optional && j.isNull then []
      else [⟨place, .wrongType j (if optional then ["array", "null"] else ["array"])⟩]
  | either keyword alternatives =>
    if Shape.someMatches place j alternatives then [] else [⟨place, .noAlternative j keyword⟩]
  | exactly text => match j with
    | str s => if s = text then [] else [⟨place, .noAlternative j "enum"⟩]
    | _ => [⟨place, .wrongType j ["string"]⟩]
  | none => match j with
    | null => []
    | _ => [⟨place, .wrongType j ["null"]⟩]
  | object required fields => match j with
    | obj es =>
      (required.filter fun key => !Entries.contains es key).map (fun key => ⟨place, .missingKey key⟩)
        ++ Shape.fieldViolations place es fields
    | _ => [⟨place, .wrongType j ["object"]⟩]

def Shape.someMatches (place : List String) (j : Json) : List Shape → Bool
  | [] => false
  | shape :: rest => (shape.violations place j).isEmpty || Shape.someMatches place j rest

def Shape.fieldViolations (place : List String) (es : Entries Json) :
    List (String × Shape) → List Violation
  | [] => []
  | (key, shape) :: rest =>
    (match es.get? key with
      | some j => shape.violations (place ++ [key]) j
      | Option.none => []) ++ Shape.fieldViolations place es rest

end

end Prompt.Json
