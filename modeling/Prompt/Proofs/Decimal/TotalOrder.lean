import Prompt.Decimal.Order
import Prompt.Proofs.Decimal.Comparison
import Prompt.Proofs.Decimal.Digits

/-!
# The total order of doubles

The rank of a double goes by its bits. For finite doubles that is their order as numbers, with the negative
zero in front of the positive one (`rank_le_rank_iff`). None of them ranks above `greatest`.
-/

namespace Prompt.Decimal
open Float.Model Float.Model.UnpackedFloat

/-- The bits without the sign, as one number. -/
def Binary.size (b : Binary) : Int := (b.exponent + 1074) * 2 ^ 52 + b.significand

/-- Above the least exponent no digit is missing. -/
structure Binary.Normal (b : Binary) : Prop where
  short : b.significand < 2 ^ 53
  least : -1074 ≤ b.exponent
  long : -1074 < b.exponent → 2 ^ 52 ≤ b.significand

theorem normal_ofFloat (x : Float) : (Binary.ofFloat x).Normal := by
  have fraction : x.toBits.toNat % 2 ^ 52 < 2 ^ 52 := Nat.mod_lt _ (by positivity)
  unfold Binary.ofFloat
  simp only [Nat.pow_eq]
  split <;> constructor <;> dsimp only <;> omega

theorem size_ofFloat (x : Float) : (Binary.ofFloat x).size = (x.toBits.toNat % 2 ^ 63 : Nat) := by
  unfold Binary.size Binary.ofFloat
  simp only [Nat.pow_eq]
  split <;> dsimp only <;> omega

theorem negative_ofFloat (x : Float) : (Binary.ofFloat x).negative = true ↔ 2 ^ 63 ≤ x.toBits.toNat := by
  have most : x.toBits.toNat < 2 ^ 64 := x.toBits.toNat_lt
  unfold Binary.ofFloat
  simp only [Nat.pow_eq]
  split <;> dsimp only <;> rw [beq_iff_eq] <;> omega

theorem rank_eq (x : Float) : rank x =
    if (Binary.ofFloat x).negative then -1 - (Binary.ofFloat x).size else (Binary.ofFloat x).size := by
  have most : x.toBits.toNat < 2 ^ 64 := x.toBits.toNat_lt
  simp only [rank, size_ofFloat, negative_ofFloat]
  split <;> split <;> omega

/-! ### What the bits stand for -/

section Fields
variable (x : Float)

theorem toNat_unpackExponent :
    (@unpackExponent Format.binary64 x.toBits.toBitVec).toNat = x.toBits.toNat / 2 ^ 52 % 2 ^ 11 := by
  simp [unpackExponent, Nat.shiftRight_eq_div_pow]

theorem toNat_unpackMantissa :
    (@unpackMantissa Format.binary64 x.toBits.toBitVec).toNat = x.toBits.toNat % 2 ^ 52 := by
  simp [unpackMantissa]

theorem ofBitVec_unpackSign : Sign.ofBitVec (@unpackSign Format.binary64 x.toBits.toBitVec) =
    if (Binary.ofFloat x).negative then .negative else .positive := by
  have most : x.toBits.toNat < 2 ^ 64 := x.toBits.toNat_lt
  have bit : (@unpackSign Format.binary64 x.toBits.toBitVec).toNat = x.toBits.toNat / 2 ^ 63 % 2 := by
    simp [unpackSign, Nat.shiftRight_eq_div_pow]
  simp only [Sign.ofBitVec, negative_ofFloat, ← BitVec.toNat_inj, bit, BitVec.toNat_zero]
  split <;> split <;> first | rfl | omega

end Fields

theorem unpack_of_isFinite {x : Float} (finite : x.isFinite = true) :
    (∃ s, (Binary.ofFloat x).significand = 0 ∧ x.toModel.unpack = .zero s) ∨
    ∃ pos : 0 < (Binary.ofFloat x).significand, x.toModel.unpack =
      .finite (if (Binary.ofFloat x).negative then .negative else .positive)
        (Binary.ofFloat x).significand (Binary.ofFloat x).exponent pos := by
  have field := field_of_isFinite finite
  have exponent := toNat_unpackExponent x
  have mantissa := toNat_unpackMantissa x
  have numeric : @unpackExponent Format.binary64 x.toBits.toBitVec ≠ -1#11 := by
    intro ones
    rw [ones] at exponent
    exact field exponent.symm
  change (∃ s, _ ∧ UnpackedFloat.unpack Format.binary64 x.toBits.toBitVec = _) ∨
    ∃ pos, UnpackedFloat.unpack Format.binary64 x.toBits.toBitVec = _
  rw [UnpackedFloat.unpack]
  dsimp only
  rw [if_neg numeric, ofBitVec_unpackSign]
  split
  · next subnormal =>
      have none : x.toBits.toNat / 2 ^ 52 % 2 ^ 11 = 0 := by
        rw [← exponent, subnormal]
        rfl
      have decoded : (Binary.ofFloat x).significand = x.toBits.toNat % 2 ^ 52 ∧
          (Binary.ofFloat x).exponent = -1074 := by
        simp only [Binary.ofFloat, Nat.pow_eq, none, if_true, and_self]
      split
      · next zero =>
          refine Or.inl ⟨_, ?_, rfl⟩
          rw [decoded.1, ← mantissa, zero]
          rfl
      · next filled =>
          have pos : 0 < (Binary.ofFloat x).significand := by
            rw [decoded.1, ← mantissa]
            exact Nat.pos_of_ne_zero fun zero => filled (BitVec.eq_of_toNat_eq zero)
          refine Or.inr ⟨pos, ?_⟩
          rw [UnpackedFloat.finite.injEq, mantissa, exponent, decoded.1, decoded.2, none]
          exact ⟨rfl, rfl, rfl⟩
  · next normal =>
      have some : x.toBits.toNat / 2 ^ 52 % 2 ^ 11 ≠ 0 := by
        rw [← exponent]
        exact fun zero => normal (BitVec.eq_of_toNat_eq zero)
      have decoded : (Binary.ofFloat x).significand = 2 ^ 52 + x.toBits.toNat % 2 ^ 52 ∧
          (Binary.ofFloat x).exponent = (x.toBits.toNat / 2 ^ 52 % 2 ^ 11 : Nat) - 1075 := by
        simp only [Binary.ofFloat, Nat.pow_eq, some, if_false, and_self]
      have whole : (1#1 ++ @unpackMantissa Format.binary64 x.toBits.toBitVec).toNat =
          2 ^ 52 + x.toBits.toNat % 2 ^ 52 := by
        rw [BitVec.toNat_append, mantissa, ← Nat.shiftLeft_add_eq_or_of_lt (Nat.mod_lt _ (by positivity))]
        rfl
      refine Or.inr ⟨by omega, ?_⟩
      rw [UnpackedFloat.finite.injEq, whole, exponent, decoded.1, decoded.2]
      exact ⟨rfl, rfl, rfl⟩

theorem level_eq {x : Float} (finite : x.isFinite = true) : level x =
    if (Binary.ofFloat x).significand = 0 then toLex (0, toLex (0, 0))
    else if (Binary.ofFloat x).negative then
      toLex (-1, toLex (-(Binary.ofFloat x).exponent, -((Binary.ofFloat x).significand : ℤ)))
    else toLex (1, toLex ((Binary.ofFloat x).exponent, ((Binary.ofFloat x).significand : ℤ))) := by
  unfold level
  rcases unpack_of_isFinite finite with ⟨s, none, unpacked⟩ | ⟨pos, unpacked⟩
  · rw [unpacked, if_pos none]
    rfl
  · rw [unpacked, if_neg pos.ne']
    split <;> rfl

theorem Binary.Normal.size_le_size_iff {b c : Binary} (hb : b.Normal) (hc : c.Normal) :
    b.size ≤ c.size ↔ b.exponent < c.exponent ∨ b.exponent = c.exponent ∧ b.significand ≤ c.significand := by
  obtain ⟨short, least, long⟩ := hb
  obtain ⟨short', least', long'⟩ := hc
  unfold Binary.size
  omega

theorem Binary.Normal.size_eq_zero_iff {b : Binary} (hb : b.Normal) : b.size = 0 ↔ b.significand = 0 := by
  obtain ⟨-, least, long⟩ := hb
  unfold Binary.size
  omega

theorem Binary.Normal.size_nonneg {b : Binary} (hb : b.Normal) : 0 ≤ b.size := by
  have least := hb.least
  unfold Binary.size
  omega

theorem level_le_level_iff {x y : Float} (hx : x.isFinite = true) (hy : y.isFinite = true) :
    level x ≤ level y ↔
      (if (Binary.ofFloat x).negative then -(Binary.ofFloat x).size else (Binary.ofFloat x).size) ≤
        if (Binary.ofFloat y).negative then -(Binary.ofFloat y).size else (Binary.ofFloat y).size := by
  obtain ⟨normal, normal'⟩ := And.intro (normal_ofFloat x) (normal_ofFloat y)
  have up := normal.size_le_size_iff normal'
  have down := normal'.size_le_size_iff normal
  have none := normal.size_eq_zero_iff
  have none' := normal'.size_eq_zero_iff
  have filled := normal.size_nonneg
  have filled' := normal'.size_nonneg
  rw [level_eq hx, level_eq hy]
  by_cases zero : (Binary.ofFloat x).significand = 0 <;>
    by_cases zero' : (Binary.ofFloat y).significand = 0 <;>
    cases (Binary.ofFloat x).negative <;> cases (Binary.ofFloat y).negative <;>
    simp [zero, zero', Prod.Lex.toLex_le_toLex] <;> omega

/-- One finite double does not come after another one: it is not greater, and not the positive zero with the
negative one. -/
def TotalLe (x y : Float) : Prop :=
  x ≤ y ∧ ((Binary.ofFloat y).negative = true → (Binary.ofFloat x).negative = true)

theorem rank_le_rank_iff {x y : Float} (hx : x.isFinite = true) (hy : y.isFinite = true) :
    rank x ≤ rank y ↔ TotalLe x y := by
  have filled := (normal_ofFloat x).size_nonneg
  have filled' := (normal_ofFloat y).size_nonneg
  rw [TotalLe, le_iff_level hx hy, level_le_level_iff hx hy, rank_eq, rank_eq]
  cases (Binary.ofFloat x).negative <;> cases (Binary.ofFloat y).negative <;> simp <;> omega

theorem isFinite_greatest : greatest.isFinite = true := by decide +kernel

theorem rank_le_rank_greatest {x : Float} (finite : x.isFinite = true) : rank x ≤ rank greatest := by
  have field := field_of_isFinite finite
  have most : x.toBits.toNat < 2 ^ 64 := x.toBits.toNat_lt
  have top : rank greatest = 0x7FEFFFFFFFFFFFFF := by decide +kernel
  rw [top, rank]
  split <;> omega

end Prompt.Decimal
