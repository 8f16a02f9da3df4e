/-!
Blank characters and trimming. A character is blank when it has the Unicode property `White_Space`;
`U+200B` and `U+FEFF` are not among them. Text is handled as `List Char`.
-/

namespace Prompt.Text

/-- The Unicode property `White_Space`. -/
def isBlank (c : Char) : Bool :=
  let n := c.toNat
  (0x09 ≤ n && n ≤ 0x0D) || n == 0x20 || n == 0x85 || n == 0xA0 || n == 0x1680 ||
    (0x2000 ≤ n && n ≤ 0x200A) || n == 0x2028 || n == 0x2029 || n == 0x202F || n == 0x205F ||
    n == 0x3000

def trimStart (s : List Char) : List Char := s.dropWhile isBlank

def trimEnd (s : List Char) : List Char := (s.reverse.dropWhile isBlank).reverse

def trim (s : List Char) : List Char := trimEnd (trimStart s)

def firstWord? (s : List Char) : Option (List Char) :=
  match trimStart s with
  | [] => none
  | rest => some (rest.takeWhile fun c => !isBlank c)

def trimmed (s : String) : String := String.ofList (trim s.toList)

def hasInk (s : String) : Bool := s.toList.any fun c => !isBlank c

end Prompt.Text
