import Prompt.Json.Basic
import Prompt.Text.Blank
import Prompt.Text.Case

/-!
Reading records that come from several systems, which call a field by different names, and turning
identifiers into words.
-/

namespace Prompt.Transform

def textField? (j : Json) (names : List String) : Option String :=
  (names.findSome? fun n => (j.field? n).bind Json.asString?).filter fun s => s != ""

def numberField? (j : Json) (names : List String) : Option Float :=
  names.findSome? fun n => (j.field? n).bind Json.asFloat?

def listField (j : Json) (name : String) : List Json :=
  ((j.field? name).map Json.items).getD []

def humanizeRest : List Char → List Char
  | [] => []
  | c :: rest =>
    (if c = '_' ∨ c = '-' then [' ']
      else if Text.isUppercase c then ' ' :: Text.lowerChar c
      else [c]) ++ humanizeRest rest

/-- An identifier as words: `speaking_pace` and `speakingPace` give `Speaking pace`. -/
def humanize (id : String) : String :=
  String.ofList (match id.toList with
    | [] => []
    | c :: rest => (if c = '_' ∨ c = '-' then [' '] else Text.upperChar c) ++ humanizeRest rest)

end Prompt.Transform
