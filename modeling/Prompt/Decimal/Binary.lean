/-!
Doubles as exact numbers, and rounding of exact quotients. All decimal text of a double, and the whole
number nearest to it, are computed from here with natural numbers only.
-/

namespace Prompt.Decimal

/-- The number `± significand * 2 ^ exponent`. -/
structure Binary where
  negative : Bool
  significand : Nat
  exponent : Int
  deriving DecidableEq

def Binary.ofFloat (x : Float) : Binary :=
  let bits : Nat := x.toBits.toNat
  let field : Nat := bits / Nat.pow 2 52 % Nat.pow 2 11
  let fraction : Nat := bits % Nat.pow 2 52
  let negative := bits / Nat.pow 2 63 == 1
  if field = 0 then ⟨negative, fraction, -1074⟩
  else ⟨negative, Nat.pow 2 52 + fraction, (field : Int) - 1075⟩

/-- The quotient rounded to a whole number, a half to the even neighbour. -/
def roundQuotient (num den : Nat) : Nat :=
  let whole := num / den
  let twice := 2 * (num % den)
  if twice < den then whole else if den < twice then whole + 1 else whole + whole % 2

/-- The number rounded to a whole one, a half upwards, within 64 bits. What is below zero gives zero. -/
def Binary.toWhole (b : Binary) : Nat :=
  if b.negative then 0
  else
    let den := Nat.pow 2 (-b.exponent).toNat
    min ((2 * (b.significand * Nat.pow 2 b.exponent.toNat) + den) / (2 * den)) (Nat.pow 2 64 - 1)

def wholeNumber (x : Float) : Nat := if x.isNaN then 0 else (Binary.ofFloat x).toWhole

/-- The text of a number with a fixed count of decimal places. The sign of a negative number stays
also where all digits are zero. -/
def Binary.fixed (places : Nat) (b : Binary) : List Char :=
  let scaled := b.significand * Nat.pow 10 places
  let n := roundQuotient (scaled * Nat.pow 2 b.exponent.toNat) (Nat.pow 2 (-b.exponent).toNat)
  let digits := Nat.toDigits 10 n
  let padded := List.replicate (places + 1 - digits.length) '0' ++ digits
  let whole := padded.take (padded.length - places)
  let fraction := padded.drop (padded.length - places)
  (if b.negative then ['-'] else []) ++ whole ++ (if places = 0 then [] else '.' :: fraction)

end Prompt.Decimal
