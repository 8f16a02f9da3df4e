/-!
The total order of doubles: negative before positive, and the negative zero before the positive one.
-/

namespace Prompt.Decimal

def rank (x : Float) : Int :=
  let bits : Nat := x.toBits.toNat
  if bits < 0x8000000000000000 then bits else 0x7FFFFFFFFFFFFFFF - (bits : Int)

def greatest : Float := Float.ofBits 0x7FEFFFFFFFFFFFFF

end Prompt.Decimal
