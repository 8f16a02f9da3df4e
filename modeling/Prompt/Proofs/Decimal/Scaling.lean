import Prompt.Decimal.Scale
import Prompt.Proofs.Decimal.Nearest

/-!
# Scaling without overflow

The product of two doubles is the nearest double, which never passes another one (`Nearest.le`). So whole numbers
below a limit that depends on the power of ten can be scaled by that power (`isSome_ofScaled?`).
-/

namespace Prompt.Decimal
open Float.Model Float.Model.UnpackedFloat

theorem IsNormal.isInf_mul {x y : Float} {s s' : Sign} {m n : Nat} {e f : Int} (hx : IsNormal x s m e)
    (hy : IsNormal y s' n f) (least : -1074 ≤ e + f)
    (bound : (m : ℚ) * 2 ^ e * (n * 2 ^ f) ≤ greatestValue) : (x * y).isInf = false := by
  obtain ⟨M, E, product, -⟩ := hx.mul hy least bound
  exact product.isInf

/-- As far as this, and only a little further, a whole number can be scaled by a power of ten. -/
def limit (e : Nat) : Nat := if e < 292 then 2 ^ 57 else 17976931348623156 / 10 ^ (e - 292)

theorem short_limit (e : Nat) : Short (limit e) := by
  unfold limit
  split
  · exact ⟨1, by norm_num, 57, by norm_num⟩
  · next large =>
      rcases Nat.eq_or_lt_of_le (not_lt.1 large) with rfl | larger
      · exact ⟨8988465674311578, by norm_num, 1, by norm_num⟩
      · refine ⟨17976931348623156 / 10 ^ (e - 292), ?_, 0, by norm_num⟩
        calc 17976931348623156 / 10 ^ (e - 292) ≤ 17976931348623156 / 10 ^ 1 :=
              Nat.div_le_div_left (Nat.pow_le_pow_right (by norm_num) (by omega)) (by norm_num)
          _ < 2 ^ 53 := by norm_num

/-- A power of two with which 53 binary digits reach a power of ten. -/
def unit (e : Nat) : Nat := 2 ^ (e * 108853 / 32768 - 52)

/-- A number with 53 digits and above a power of ten, in units. -/
def above (e : Nat) : Nat := 10 ^ e / unit e + 1

theorem limit_mul_above_le {e : Nat} (small : e ≤ greatestPower) : above e < 2 ^ 53 ∧
    limit e * (above e * unit e) ≤ (2 ^ 53 - 1) * 2 ^ 971 := by
  have all : ∀ e < 309, above e < 2 ^ 53 ∧ limit e * (above e * unit e) ≤ (2 ^ 53 - 1) * 2 ^ 971 := by
    decide +kernel
  exact all e (Nat.lt_succ_of_le small)

theorem toModel_powerOfTen {e : Nat} (small : e ≤ greatestPower) : (powerOfTen e).toModel =
    Float.Model.pack (roundWithAccuracy double .positive (2 ^ 53 * 10 ^ e) (-53) .exact) := by
  by_cases tabled : e ≤ 22
  · have all : ∀ e < 23, (powerOfTen e).toModel =
        Float.Model.pack (roundWithAccuracy double .positive (2 ^ 53 * 10 ^ e) (-53) .exact) := by
      decide +kernel
    exact all e (Nat.lt_succ_of_le tabled)
  · have small' : e ≤ 308 := small
    rw [powerOfTen, Float.ofScientific, dif_neg (by omega)]
    show Float.Model.pack (UnpackedFloat.ofScientific double 1 (e : Int)) = _
    rw [UnpackedFloat.ofScientific, dif_neg (by norm_num), if_neg, if_neg, if_pos (by omega)]
    · rfl
    · simp
      omega
    · norm_num
      omega

theorem isNormal_powerOfTen {e : Nat} (small : e ≤ greatestPower) : ∃ m q,
    IsNormal (powerOfTen e) .positive m q ∧ -53 ≤ q ∧ (m : ℚ) * 2 ^ q ≤ ((above e * unit e : Nat) : ℚ) := by
  have value : ((2 ^ 53 * 10 ^ e : Nat) : ℚ) * 2 ^ (-53 : Int) = ((10 ^ e : Nat) : ℚ) := by
    push_cast
    rw [zpow_neg, mul_comm, ← mul_assoc]
    norm_num
  have next : 10 ^ e ≤ above e * unit e := by
    rw [above, Nat.mul_comm]
    exact (Nat.lt_mul_div_succ _ (by unfold unit; positivity)).le
  have greatest : 10 ^ e ≤ (2 ^ 53 - 1) * 2 ^ 971 :=
    (Nat.pow_le_pow_right (by norm_num) small).trans (by decide +kernel)
  have bound : ((2 ^ 53 * 10 ^ e : Nat) : ℚ) * 2 ^ (-53 : Int) ≤ greatestValue := by
    rw [value, greatestValue]
    exact_mod_cast greatest
  obtain ⟨m, q, normal, least, nearest⟩ := isNormal_of_round (x := powerOfTen e) (represents_exact _)
    (Nat.le_mul_of_pos_right _ (by positivity) |>.trans' (by norm_num)) (by norm_num) bound
    (toModel_powerOfTen small)
  refine ⟨m, q, normal, least, ?_⟩
  have scaled : ((2 ^ 53 * 10 ^ e : Nat) : ℚ) * 2 ^ (-53 : Int) ≤
      above e * 2 ^ ((e * 108853 / 32768 - 52 : Nat) : Int) := by
    rw [value, zpow_natCast]
    exact_mod_cast next
  have rounded := nearest.le ⟨_, (limit_mul_above_le small).1, _, rfl⟩ scaled
  rw [zpow_natCast] at rounded
  exact_mod_cast rounded

theorem isInf_mul_powerOfTen {n e : Nat} (pos : 0 < n) (small : e ≤ greatestPower) (bound : n ≤ limit e) :
    ((UInt64.ofNat n).toFloat * powerOfTen e).isInf = false := by
  have fits : n < 2 ^ 64 := by
    refine bound.trans_lt ?_
    unfold limit
    split
    · norm_num
    · exact (Nat.div_le_self _ _).trans_lt (by norm_num)
  have below : (n : ℚ) ≤ limit e := by exact_mod_cast bound
  obtain ⟨m, p, first, least, nearest⟩ := isNormal_toFloat pos fits
  have most := nearest.le (short_limit e) below
  obtain ⟨m', q, second, least', most'⟩ := isNormal_powerOfTen small
  refine first.isInf_mul second (by omega) ?_
  calc (m : ℚ) * 2 ^ p * (m' * 2 ^ q) ≤ limit e * ((above e * unit e : Nat) : ℚ) := by gcongr
    _ ≤ greatestValue := by
        unfold greatestValue
        exact_mod_cast (limit_mul_above_le small).2

theorem isSome_scale?_of_neg (x : Float) {e : Int} (down : e < 0) : (scale? x e).isSome := by
  induction size : (-e).toNat using Nat.strongRecOn generalizing x e with
  | _ size ih =>
      rw [scale?]
      split
      · rw [if_neg (by omega)]
        rfl
      · next far =>
          simp only [greatestPower] at far ih ⊢
          split
          · rfl
          · rw [if_neg (by omega)]
            exact ih _ (by omega) _ (by omega) rfl

theorem isSome_ofScaled?_of_neg (n : Nat) {e : Int} (down : e < 0) : (ofScaled? n e).isSome :=
  isSome_scale?_of_neg _ down

theorem le_greatestPower {n e : Nat} (pos : 0 < n)
    (bound : n * 10 ^ e ≤ 17976931348623157 * 10 ^ 292) : e ≤ greatestPower := by
  by_contra far
  obtain ⟨d, rfl⟩ : ∃ d, e = d + 17 + 292 := ⟨e - 309, by simp only [greatestPower] at far; omega⟩
  rw [pow_add, ← mul_assoc] at bound
  have short := Nat.le_of_mul_le_mul_right bound (by positivity)
  have filled : 0 < n * 10 ^ d := Nat.mul_pos pos (by positivity)
  rw [pow_add, ← mul_assoc] at short
  omega

/-- The greatest double has the shortest text `1.7976931348623157e+308`. -/
theorem isSome_ofScaled? {n e : Nat} (pos : 0 < n) (digits : n ≤ 10 ^ 17)
    (bound : n * 10 ^ e ≤ 17976931348623157 * 10 ^ 292) : (ofScaled? n e).isSome := by
  have small : e ≤ greatestPower := le_greatestPower pos bound
  have finite : ((UInt64.ofNat n).toFloat * powerOfTen e).isInf = false := by
    by_cases less : e < 292
    · refine isInf_mul_powerOfTen pos small ?_
      rw [limit, if_pos less]
      exact digits.trans (by norm_num)
    · obtain ⟨k, rfl⟩ : ∃ k, e = k + 292 := ⟨e - 292, by omega⟩
      have scaled : n * 10 ^ k ≤ 17976931348623157 := by
        rw [pow_add, ← mul_assoc] at bound
        exact Nat.le_of_mul_le_mul_right bound (by positivity)
      rcases Nat.eq_or_lt_of_le scaled with exact | below
      · -- Its digits are not a double, but they round down to one.
        cases k with
        | zero =>
            rw [pow_zero, mul_one] at exact
            subst exact
            decide +kernel
        | succ k =>
            rw [pow_succ, ← mul_assoc] at exact
            omega
      · refine isInf_mul_powerOfTen pos small ?_
        rw [limit, if_neg less, Nat.add_sub_cancel, Nat.le_div_iff_mul_le (by positivity)]
        omega
  rw [ofScaled?, scale?]
  simp only [Int.natAbs_natCast, small, if_true, finite]
  simp

end Prompt.Decimal
