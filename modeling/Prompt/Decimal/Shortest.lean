import Prompt.Decimal.Binary

/-!
The shortest decimal that reads back as a given double. The decimals that round to the double form an
interval around its exact value; on the grids of one, two, … seventeen significant digits only the two
neighbours of the value have to be tried, and the first grid with a hit gives the answer.
-/

namespace Prompt.Decimal

/-- The numbers that round to `value / den`: from `low / den` to `high / den`, the ends included when
`closed`. -/
structure Cell where
  low : Nat
  value : Nat
  high : Nat
  den : Nat
  closed : Bool

namespace Cell

/-- The cell of the double `m * 2 ^ q`, in quarters of its unit: it ends half a unit above, and half
a unit below unless the next smaller double is only half a unit away. -/
def ofBinary (m : Nat) (q : Int) : Cell :=
  let below := if m = Nat.pow 2 52 ∧ q ≠ -1074 then 1 else 2
  let up := Nat.pow 2 (q - 2).toNat
  { low := (4 * m - below) * up
    value := 4 * m * up
    high := (4 * m + 2) * up
    den := Nat.pow 2 (2 - q).toNat
    closed := m % 2 == 0 }

def inUnits (c : Cell) (e : Int) : Cell :=
  let up := Nat.pow 10 (-e).toNat
  { c with low := c.low * up, value := c.value * up, high := c.high * up
           den := c.den * Nat.pow 10 e.toNat }

def contains (c : Cell) (n : Nat) : Bool :=
  if c.closed then c.low ≤ n * c.den && n * c.den ≤ c.high
  else c.low < n * c.den && n * c.den < c.high

/-- The whole number in the cell that is nearest to its value, an exact middle going to the even
one. -/
def nearest? (c : Cell) : Option Nat :=
  let n := c.value / c.den
  match c.contains n, c.contains (n + 1) with
  | true, true => some (roundQuotient c.value c.den)
  | true, false => some n
  | false, true => some (n + 1)
  | false, false => none

/-- More places than a double has zeros behind its point. -/
def places : Nat := 400

/-- The greatest power of ten in the value. -/
def leading (c : Cell) : Int :=
  ((Nat.toDigits 10 (c.value * Nat.pow 10 places / c.den)).length : Int) - (places + 1)

end Cell

/-- Decimal digits without zeros at the end, and the place of the point: the number is
`0.digits * 10 ^ point`. -/
structure Digits where
  digits : List Char
  point : Int
  deriving DecidableEq

def Digits.ofScaled (n : Nat) (e : Int) : Digits :=
  let written := Nat.toDigits 10 n
  ⟨(written.reverse.dropWhile (· == '0')).reverse, written.length + e⟩

/-- The fewest digits that read back as `m * 2 ^ q`, and of those the nearest. -/
def shortest (m : Nat) (q : Int) : Digits :=
  let cell := Cell.ofBinary m q
  let top := cell.leading
  let tried := (List.range 17).findSome? fun (n : Nat) =>
    ((cell.inUnits (top - n)).nearest?).map fun d => Digits.ofScaled d (top - n)
  tried.getD ⟨[], 0⟩

/-- How digits are laid out: which places of the point are written positionally. -/
structure Layout where
  leastPoint : Int
  greatestPoint : Int

/-- Positional text always shows a point; a whole number ends in `.0`. Elsewhere an exponent with a
sign follows the digits. -/
def Layout.write (layout : Layout) (d : Digits) : List Char :=
  if layout.leastPoint ≤ d.point ∧ d.point ≤ layout.greatestPoint then
    let whole := d.digits.take d.point.toNat
    let fraction := d.digits.drop d.point.toNat
    (if whole.isEmpty then ['0'] else whole ++ List.replicate (d.point.toNat - whole.length) '0') ++
      '.' :: (if fraction.isEmpty then ['0']
        else List.replicate (-d.point).toNat '0' ++ fraction)
  else
    let e := d.point - 1
    d.digits.take 1 ++ (if d.digits.length ≤ 1 then [] else '.' :: d.digits.drop 1) ++
      'e' :: (if 0 ≤ e then '+' else '-') :: Nat.toDigits 10 e.natAbs

def Binary.write (layout : Layout) (b : Binary) : List Char :=
  let sign := if b.negative then ['-'] else []
  sign ++ if b.significand = 0 then ['0', '.', '0'] else
    layout.write (shortest b.significand b.exponent)

end Prompt.Decimal
