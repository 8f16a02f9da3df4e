import Prompt.Json.Writer

/-!
How a value shows in running text: a string as it is, `null` and a missing value as nothing, and a
double that is a whole number below `1e15` without its fraction.
-/

namespace Prompt

def Number.display : Number → List Char
  | .int n => write (.int n)
  | .double x =>
    if x.floor == x && x.abs < 1e15 then (toString x.toInt64.toInt).toList else write (.double x)

namespace Json

def display : Json → List Char
  | null => []
  | str s => s.toList
  | num n => n.display
  | j => j.write

def display? (j : Option Json) : List Char := (j.map display).getD []

end Json

end Prompt
