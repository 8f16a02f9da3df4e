import Prompt.Text.CaseTable

/-!
Case mapping by the full Unicode rules. One character may map to several (`ß` to `SS`), and a capital
sigma becomes a final sigma when it ends a word.
-/

namespace Prompt.Text

def mapCase (sequences : List (Nat × List Nat)) (runs : List CaseRun) (c : Char) :
    List Char :=
  match sequences.find? fun e => e.1 == c.toNat with
  | some (_, chars) => chars.map Char.ofNat
  | none => match runs.find? fun r => r.contains c.toNat with
    | some r => [Char.ofNat (r.map c.toNat)]
    | none => [c]

def lowerChar (c : Char) : List Char := mapCase lowerSequences lowerRuns c

def upperChar (c : Char) : List Char := mapCase upperSequences upperRuns c

def isUppercase (c : Char) : Bool := uppercaseRuns.any fun r => r.contains c.toNat

def isCased (c : Char) : Bool := inRanges casedRanges c.toNat

def isCaseIgnorable (c : Char) : Bool := inRanges caseIgnorableRanges c.toNat

def startsCased (s : List Char) : Bool :=
  match s.dropWhile isCaseIgnorable with
  | [] => false
  | c :: _ => isCased c

/-- Lower-cases a text of which `afterCased` says whether the last character before it, leaving out
case-ignorable ones, is a cased letter. -/
def lowerFrom (afterCased : Bool) : List Char → List Char
  | [] => []
  | c :: rest =>
    let mapped :=
      if c = 'Σ' then [if afterCased && !startsCased rest then 'ς' else 'σ'] else lowerChar c
    mapped ++ lowerFrom (if isCaseIgnorable c then afterCased else isCased c) rest

def lower (s : List Char) : List Char := lowerFrom false s

def lowercased (s : String) : String := String.ofList (lower s.toList)

end Prompt.Text
