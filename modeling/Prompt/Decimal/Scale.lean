/-!
Reading a decimal as a double by one scaling step: the leading digits, as many as fit 64 bits, are
taken as a whole number and multiplied or divided by a power of ten. The result is within a few units
in the last place and not always the nearest double.
-/

namespace Prompt.Decimal

def powerOfTen (n : Nat) : Float := Float.ofScientific 1 false n

/-- Takes digits into `n` as long as the number stays below `limit`; gives the digits left over. -/
def absorb (limit n : Nat) : List Char → Nat × List Char
  | [] => (n, [])
  | c :: rest =>
    let next := 10 * n + (c.toNat - '0'.toNat)
    if next < limit then absorb limit next rest else (n, c :: rest)

def greatestPower : Nat := 308

/-- The number `x * 10 ^ e`, or nothing where it exceeds every double. A very small power is applied
in steps of the greatest one. -/
def scale? (x : Float) (e : Int) : Option Float :=
  if e.natAbs ≤ greatestPower then
    if 0 ≤ e then
      let y := x * powerOfTen e.natAbs
      if y.isInf then none else some y
    else some (x / powerOfTen e.natAbs)
  else if x == 0.0 then some x
  else if 0 ≤ e then none
  else scale? (x / powerOfTen greatestPower) (e + greatestPower)
termination_by (-e).toNat
decreasing_by simp only [greatestPower] at *; omega

def ofScaled? (n : Nat) (e : Int) : Option Float := scale? (UInt64.ofNat n).toFloat e

end Prompt.Decimal
