import Prompt.Proofs.Decimal.Scaling

/-!
# Scaled numbers are finite

A quotient by a power of ten has no greater exponent than what is divided, up to the little that the least
power can add, and so it does not overflow. A product can overflow, but then nothing is given. Hence
whatever comes of scaling a whole number is finite (`isFinite_of_ofScaled?`).
-/

namespace Prompt.Decimal
open Float.Model Float.Model.UnpackedFloat

/-- Zero, or a number with at most this exponent. -/
def Below (k : Int) : UnpackedFloat → Prop
  | .zero _ => True
  | .finite _ _ e _ => e ≤ k
  | .infinity _ | .notANumber => False

theorem Below.isFinite {k : Int} {f : UnpackedFloat} (below : Below k f) : f.isFinite = true := by
  cases f with
  | zero sign => rfl
  | finite sign m e pos => rfl
  | infinity sign => exact below.elim
  | notANumber => exact below.elim

/-! ### Packing -/

theorem below_unpack_components {k : Int} {b : BitVec 11} {m : BitVec 52} (sign : Sign)
    (numeric : b ≠ -1#11) (least : -1074 ≤ k) (most : (b.toNat : Int) - 1075 ≤ k) :
    Below k (UnpackedFloat.unpack double (packComponents double sign b m)) := by
  simp only [UnpackedFloat.unpack, unpackMantissa_packComponents, unpackExponent_packComponents]
  rw [if_neg numeric]
  split
  · next subnormal =>
      split
      · trivial
      · subst subnormal
        exact least
  · exact most

theorem isInf_unpack_packedInfinity (sign : Sign) :
    (UnpackedFloat.unpack double (packedInfinity double sign)).isInf = true := by
  cases sign <;> rfl

/-- What is packed comes out below the same exponent, unless that is too great to be packed. -/
theorem below_unpack_pack {k : Int} {f : UnpackedFloat} (below : Below k f) (least : -1074 ≤ k)
    (fits : k ≤ 971 ∨ (Float.Model.pack f).unpack.isInf = false) :
    Below k (Float.Model.pack f).unpack := by
  cases f with
  | infinity sign => exact below.elim
  | notANumber => exact below.elim
  | zero sign => exact below_unpack_components sign (by decide) least (by change (0 : Int) - 1075 ≤ k; omega)
  | finite sign m e pos =>
      have small : e ≤ k := below
      obtain ⟨b, field⟩ : ∃ b, b = (e + (1023 : Nat) + (52 : Nat)).toNat := ⟨_, rfl⟩
      have same : (Float.Model.pack (.finite sign m e pos)).unpack = UnpackedFloat.unpack double
          (if 2 ^ 11 ≤ b + 1 then packedInfinity double sign
          else if m.log2 + 1 = 53 then
            packComponents double sign (BitVec.ofNat 11 b) (BitVec.ofNat 52 m)
          else packComponents double sign 0#11 (BitVec.ofNat 52 m)) := by
        rw [field]
        rfl
      rw [same] at fits ⊢
      split at fits
      · next great =>
          rcases fits with most | finite
          · omega
          · rw [isInf_unpack_packedInfinity] at finite
            cases finite
      · next less =>
          rw [if_neg less]
          have value : (BitVec.ofNat 11 b).toNat = b := Nat.mod_eq_of_lt (by omega)
          split
          · refine below_unpack_components sign ?_ least ?_
            · intro greatest
              have top := congrArg BitVec.toNat greatest
              rw [value] at top
              simp at top
              omega
            · rw [value]
              omega
          · exact below_unpack_components sign (by decide) least (by rw [BitVec.toNat_zero]; omega)

theorem toNat_lt_of_ne {b : BitVec 11} (numeric : b ≠ -1#11) : b.toNat < 2047 := by
  have less := b.isLt
  by_contra most
  refine numeric (BitVec.eq_of_toNat_eq ?_)
  show b.toNat = 2047
  omega

theorem bounds_of_unpack {x : Float} {sign : Sign} {m : Nat} {e : Int} {pos : 0 < m}
    (unpacked : x.toModel.unpack = .finite sign m e pos) : m < 2 ^ 53 ∧ e ≤ 971 := by
  change UnpackedFloat.unpack double x.toModel.toBits.toBitVec = _ at unpacked
  rw [UnpackedFloat.unpack] at unpacked
  dsimp only at unpacked
  split at unpacked
  · split at unpacked <;> cases unpacked
  · next numeric =>
      split at unpacked
      · next subnormal =>
          split at unpacked
          · cases unpacked
          · cases unpacked
            rw [subnormal]
            exact ⟨(BitVec.isLt _).trans (by norm_num), by decide⟩
      · cases unpacked
        refine ⟨BitVec.isLt (1#1 ++ _), ?_⟩
        have less := toNat_lt_of_ne numeric
        show ((@unpackExponent double _).toNat : Int) - ((1023 : Nat) + (52 : Nat)) ≤ 971
        omega

/-- The sign can be turned. -/
theorem isFinite_neg {x : Float} (finite : x.isFinite = true) : (-x).isFinite = true := by
  change x.toModel.unpack.isFinite = true at finite
  have turned : Below 971 x.toModel.unpack.neg := by
    cases unpacked : x.toModel.unpack with
    | zero sign => trivial
    | finite sign m e pos => exact (bounds_of_unpack unpacked).2
    | infinity sign => rw [unpacked] at finite; cases finite
    | notANumber => rw [unpacked] at finite; cases finite
  exact (below_unpack_pack turned (by norm_num) (.inl le_rfl)).isFinite

/-! ### Rounding -/

theorem log2_lt_of_lt {m k : Nat} (pos : 0 < k) (less : m < 2 ^ k) : m.log2 < k := by
  rcases Nat.eq_zero_or_pos m with rfl | filled
  · exact pos
  · exact (Nat.log2_lt filled.ne').2 less

theorem shiftToTargetExponent_eq (m : Nat) (e : Int) (accuracy : Accuracy) :
    (shiftToTargetExponent double m e accuracy).1.mantissa =
        m / 2 ^ (max (m.log2 + e - 52) (-1074) - e).toNat ∧
      (shiftToTargetExponent double m e accuracy).2 = max e (max (m.log2 + e - 52) (-1074)) := by
  rw [shiftToTargetExponent, targetExponent_eq, shiftToExponent]
  refine ⟨?_, ?_⟩
  · rw [mantissa_shiftRight, mantissa_ofMantissaAndAccuracy]
  · dsimp only
    omega

/-- Rounding to 53 binary digits adds at most one to the exponent. -/
theorem below_roundWithAccuracy {k : Int} (sign : Sign) {m : Nat} {e : Int} (accuracy : Accuracy)
    (small : e < k) (digits : m.log2 + e - 52 < k) (least : -1074 < k) :
    Below k (roundWithAccuracy double sign m e accuracy) := by
  obtain ⟨first, exponent⟩ := shiftToTargetExponent_eq m e accuracy
  rw [roundWithAccuracy]
  dsimp only
  split
  · trivial
  · next filled =>
      have rounded := (roundedMantissa_bounds (shiftToTargetExponent double m e accuracy).1).2
      have short : m < 2 ^ ((max (m.log2 + e - 52) (-1074) - e).toNat + 53) := by
        refine Nat.lt_log2_self.trans_le (Nat.pow_le_pow_right (by norm_num) ?_)
        omega
      rw [pow_add] at short
      have kept : (shiftToTargetExponent double m e accuracy).1.mantissa < 2 ^ 53 :=
        first ▸ Nat.div_lt_of_lt_mul short
      have carry : (shiftToTargetExponent double m e accuracy).1.roundedMantissa.log2 < 54 :=
        log2_lt_of_lt (by norm_num) (by omega)
      show (shiftToTargetExponent double _ _ _).2 ≤ k
      rw [(shiftToTargetExponent_eq _ _ _).2, exponent]
      omega

theorem below_div {k l : Int} {x y : Float} {s : Sign} {n : Nat} {f : Int} (below : Below k x.toModel.unpack)
    (normal : IsNormal y s n f) (less : k - f < l) (least : -1074 < l) (fits : l ≤ 971) :
    Below l (x / y).toModel.unpack := by
  obtain ⟨pos, divisor⟩ := normal.unpack_eq
  have quotient : (x / y).toModel = Float.Model.pack (div double x.toModel.unpack y.toModel.unpack) := rfl
  rw [quotient]
  refine below_unpack_pack ?_ least.le (.inl fits)
  rw [divisor]
  cases unpacked : x.toModel.unpack with
  | infinity sign => rw [unpacked] at below; exact below.elim
  | notANumber => rw [unpacked] at below; exact below.elim
  | zero sign => trivial
  | finite sign' m e pos' =>
      rw [unpacked] at below
      have small : e ≤ k := below
      have short := (bounds_of_unpack unpacked).1
      have long := normal.lower
      -- The quotient of the digits has no more digits than were put behind the dividend.
      obtain ⟨t, target⟩ : ∃ t, t = min (e - f)
        (double.targetExponent (totalExponent m e - totalExponent n f)) := ⟨_, rfl⟩
      have digits : ((m <<< (e - f - t).toNat) / n).log2 ≤ (e - f - t).toNat := by
        refine Nat.lt_succ_iff.1 (log2_lt_of_lt (Nat.succ_pos _) (Nat.div_lt_of_lt_mul ?_))
        rw [Nat.shiftLeft_eq]
        calc m * 2 ^ (e - f - t).toNat < 2 ^ 53 * 2 ^ (e - f - t).toNat :=
              Nat.mul_lt_mul_of_pos_right short (by positivity)
          _ = 2 ^ 52 * 2 ^ ((e - f - t).toNat + 1) := by ring
          _ ≤ n * 2 ^ ((e - f - t).toNat + 1) := Nat.mul_le_mul_right _ long
      show Below _ (roundWithAccuracy double (sign' / s)
        ((m <<< (e - f - min (e - f) _).toNat) / n) (min (e - f) _) _)
      rw [← target]
      apply below_roundWithAccuracy <;> omega

theorem isFinite_mul {k : Int} {x y : Float} {s : Sign} {n : Nat} {f : Int} (below : Below k x.toModel.unpack)
    (normal : IsNormal y s n f) (fits : (x * y).isInf = false) : (x * y).isFinite = true := by
  obtain ⟨pos, factor⟩ := normal.unpack_eq
  have product : (x * y).toModel = Float.Model.pack (mul double x.toModel.unpack y.toModel.unpack) := rfl
  change (x * y).toModel.unpack.isInf = false at fits
  rw [product] at fits
  obtain ⟨top, least, rounded⟩ : ∃ top : Int, -1074 ≤ top ∧
      Below top (mul double x.toModel.unpack y.toModel.unpack) := by
    rw [factor]
    cases unpacked : x.toModel.unpack with
    | infinity sign => rw [unpacked] at below; exact below.elim
    | notANumber => rw [unpacked] at below; exact below.elim
    | zero sign => exact ⟨0, by omega, trivial⟩
    | finite sign' m e pos' =>
        refine ⟨max (max (e + f) ((m * n).log2 + (e + f) - 52) + 1) 0, by omega, ?_⟩
        show Below _ (roundWithAccuracy double (sign' * s) (m * n) (e + f) .exact)
        apply below_roundWithAccuracy <;> omega
  show (x * y).toModel.unpack.isFinite = true
  rw [product]
  exact (below_unpack_pack rounded least (.inr fits)).isFinite

/-! ### Scaling -/

theorem below_toFloat (n : Nat) : Below 100 (UInt64.ofNat n).toFloat.toModel.unpack := by
  have fits : (UInt64.ofNat n).toNat < 2 ^ 64 := (UInt64.ofNat n).toNat_lt
  obtain ⟨m, same⟩ : ∃ m, m = (UInt64.ofNat n).toNat := ⟨_, rfl⟩
  have whole : UInt64.ofNat n = UInt64.ofNat m := by rw [same, UInt64.ofNat_toNat]
  rw [whole]
  rw [← same] at fits
  rcases Nat.eq_zero_or_pos m with rfl | pos
  · show Below 100 (Float.Model.pack (UnpackedFloat.normalize double 0 0 .positive)).unpack
    exact below_unpack_pack trivial (by omega) (.inl (by omega))
  · rw [toModel_toFloat pos fits]
    have digits : (m * 2 ^ (52 - m.log2)).log2 < 64 := by
      refine log2_lt_of_lt (by norm_num) ?_
      rcases Nat.lt_or_ge 52 m.log2 with long | short
      · rwa [Nat.sub_eq_zero_of_le long.le, pow_zero, mul_one]
      · calc m * 2 ^ (52 - m.log2) < 2 ^ (m.log2 + 1) * 2 ^ (52 - m.log2) :=
              Nat.mul_lt_mul_of_pos_right Nat.lt_log2_self (by positivity)
          _ = 2 ^ 53 := by rw [← pow_add]; congr 1; omega
          _ < 2 ^ 64 := by norm_num
    exact below_unpack_pack (below_roundWithAccuracy .positive .exact (by omega) (by omega) (by omega))
      (by omega) (.inl (by omega))

theorem isNormal_greatestPower : IsNormal (powerOfTen greatestPower) .positive 5010420900022432 971 := by
  have bits : powerOfTen greatestPower = Float.ofBits 0x7FE1CCF385EBC8A0 := by decide +kernel
  rw [bits]
  exact ⟨⟨by norm_num, rfl⟩, by norm_num, by norm_num⟩

theorem isFinite_toFloat (n : Nat) : (UInt64.ofNat n).toFloat.isFinite = true := (below_toFloat n).isFinite

theorem isFinite_of_scale? {x y : Float} {e : Int} (below : Below 100 x.toModel.unpack)
    (scales : scale? x e = some y) : y.isFinite = true := by
  induction size : (-e).toNat using Nat.strongRecOn generalizing x e with
  | _ size ih =>
      rw [scale?] at scales
      split at scales
      · next near =>
          obtain ⟨m, f, power, least, -⟩ := isNormal_powerOfTen near
          split at scales
          · dsimp only at scales
            split at scales
            · cases scales
            · next fits =>
                cases scales
                exact isFinite_mul below power (by simpa using fits)
          · cases scales
            exact (below_div below power (show 100 - f < 200 by omega) (by norm_num) (by norm_num)).isFinite
      · next far =>
          split at scales
          · cases scales
            exact below.isFinite
          · split at scales
            · cases scales
            · next down =>
                -- The greatest power takes more from the exponent than rounding gives back.
                have smaller : Below 100 (x / powerOfTen greatestPower).toModel.unpack :=
                  below_div below isNormal_greatestPower (by norm_num) (by norm_num) (by norm_num)
                simp only [greatestPower] at far smaller scales ih
                exact ih _ (by omega) smaller scales rfl

theorem isFinite_of_ofScaled? {n : Nat} {e : Int} {y : Float} (scales : ofScaled? n e = some y) :
    y.isFinite = true :=
  isFinite_of_scale? (below_toFloat n) scales

end Prompt.Decimal
