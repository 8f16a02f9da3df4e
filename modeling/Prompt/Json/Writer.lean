import Prompt.Decimal.Shortest
import Prompt.Json.Basic

/-!
The text of a JSON value: compact, without blanks, and indented by two blanks a level. Both keep the
order of entries.
-/

namespace Prompt

/-- A double is written positionally from `1e-5` up to, but not including, `1e16`. -/
def Number.layout : Decimal.Layout := ⟨-4, 16⟩

def Number.writeDouble (x : Float) : List Char := (Decimal.Binary.ofFloat x).write Number.layout

def Number.write : Number → List Char
  | .int n => (toString n).toList
  | .double x => writeDouble x

namespace Json

def escapeChar (c : Char) : List Char :=
  match c with
  | '"' => ['\\', '"']
  | '\\' => ['\\', '\\']
  | '\x08' => ['\\', 'b']
  | '\x0c' => ['\\', 'f']
  | '\n' => ['\\', 'n']
  | '\r' => ['\\', 'r']
  | '\t' => ['\\', 't']
  | c =>
    if c.toNat < 0x20 then
      ['\\', 'u', '0', '0', Nat.digitChar (c.toNat / 16), Nat.digitChar (c.toNat % 16)]
    else [c]

def writeString (s : String) : List Char := '"' :: s.toList.flatMap escapeChar ++ ['"']

mutual

def write : Json → List Char
  | null => ['n', 'u', 'l', 'l']
  | bool true => ['t', 'r', 'u', 'e']
  | bool false => ['f', 'a', 'l', 's', 'e']
  | num n => n.write
  | str s => writeString s
  | arr xs => '[' :: [','].intercalate (writeItems xs) ++ [']']
  | obj es => '\x7b' :: [','].intercalate (writeEntries es) ++ ['\x7d']

def writeItems : List Json → List (List Char)
  | [] => []
  | x :: rest => x.write :: writeItems rest

def writeEntries : List (String × Json) → List (List Char)
  | [] => []
  | (k, v) :: rest => (writeString k ++ ':' :: v.write) :: writeEntries rest

end

def compact (j : Json) : String := String.ofList j.write

private def newline (depth : Nat) : List Char := '\n' :: List.replicate (2 * depth) ' '

/-- Brackets around parts, one part a line; without parts the brackets stand together. -/
private def block (depth : Nat) (opening closing : Char) (parts : List (List Char)) : List Char :=
  if parts.isEmpty then [opening, closing]
  else opening :: newline (depth + 1) ++
    (',' :: newline (depth + 1)).intercalate parts ++ newline depth ++ [closing]

mutual

def writeIndented (depth : Nat) : Json → List Char
  | null => write null
  | bool b => write (bool b)
  | num n => write (num n)
  | str s => write (str s)
  | arr xs => block depth '[' ']' (indentItems (depth + 1) xs)
  | obj es => block depth '\x7b' '\x7d' (indentEntries (depth + 1) es)

def indentItems (depth : Nat) : List Json → List (List Char)
  | [] => []
  | x :: rest => x.writeIndented depth :: indentItems depth rest

def indentEntries (depth : Nat) : List (String × Json) → List (List Char)
  | [] => []
  | (k, v) :: rest =>
    (writeString k ++ ':' :: ' ' :: v.writeIndented depth) :: indentEntries depth rest

end

def pretty (j : Json) : String := String.ofList (j.writeIndented 0)

end Json

end Prompt
