import Prompt.Proofs.Decimal.Nearest
import Prompt.Proofs.Decimal.TotalOrder
import Prompt.Transform.Curriculum

/-!
# Percentages

A percentage is computed with doubles: both counts are rounded, so is the product, the quotient, and at last the
percentage to a whole number. What four roundings leave of the exact share is more than enough for a bound
(`percent_le`), and below `2 ^ 46` only the quotient is rounded, too little to reach the next half (`percent_eq`).
-/

namespace Prompt.Decimal

theorem IsNormal.ofFloat_eq {x : Float} {m : ℕ} {e : ℤ} (normal : IsNormal x .positive m e) :
    Binary.ofFloat x = ⟨false, m, e⟩ := by
  obtain ⟨pos, unpacked⟩ := normal.unpack_eq
  rcases unpack_of_isFinite normal.isFinite with ⟨s, -, zero⟩ | ⟨pos', same⟩
  · rw [unpacked] at zero
    cases zero
  · rw [unpacked, Float.Model.UnpackedFloat.finite.injEq] at same
    obtain ⟨sign, rfl, rfl⟩ := same
    cases negative : (Binary.ofFloat x).negative with
    | false => rw [← negative]
    | true =>
        rw [negative] at sign
        cases sign

theorem toWhole_eq {m : ℕ} {e : ℤ} (small : (m : ℚ) * 2 ^ e ≤ 2 ^ 63) :
    (Binary.mk false m e).toWhole = ⌊(m : ℚ) * 2 ^ e + 1 / 2⌋₊ := by
  have half : ((2 * (m * 2 ^ e.toNat) + 2 ^ (-e).toNat : ℕ) : ℚ) / (2 * 2 ^ (-e).toNat : ℕ) =
      m * 2 ^ e + 1 / 2 := by
    have scale : (2 : ℚ) ^ e = 2 ^ e.toNat / 2 ^ (-e).toNat := by
      rw [← zpow_natCast, ← zpow_natCast, ← zpow_sub₀ (by norm_num)]
      congr 1
      omega
    rw [scale]
    push_cast
    field_simp
  simp only [Binary.toWhole, Bool.false_eq_true, if_false, Nat.pow_eq]
  rw [← Nat.floor_div_eq_div (K := ℚ), half, min_eq_left]
  apply Nat.le_sub_one_of_lt
  rw [Nat.floor_lt (by positivity)]
  push_cast
  linarith

theorem wholeNumber_of_denotes {x : Float} {v : ℚ} (denotes : Denotes x v) (small : v ≤ 2 ^ 63) :
    wholeNumber x = ⌊v + 1 / 2⌋₊ := by
  obtain ⟨m, e, normal, rfl⟩ := denotes
  rw [wholeNumber, normal.isNaN, normal.ofFloat_eq, ← toWhole_eq small]
  rfl

theorem short_half {k : ℕ} (pos : 0 < k) (small : k ≤ 2 ^ 52) : Short (k - 1 / 2) := by
  refine ⟨2 * k - 1, by omega, -1, ?_⟩
  rw [Nat.cast_sub (by omega), zpow_neg_one]
  push_cast
  ring

end Prompt.Decimal

namespace Prompt.Transform
open Decimal Float.Model

theorem count_eq {n : ℕ} (fits : n < 2 ^ 64) : count n = (UInt64.ofNat n).toFloat := by
  have inside : n < UInt64.size := fits
  rw [count, UInt64.ofNatClamp, dif_pos inside, UInt64.ofNatLT_eq_ofNat]

theorem count_min (n : ℕ) : count (min n (2 ^ 64 - 1)) = count n := by
  rcases Nat.lt_or_ge n (2 ^ 64) with fits | more
  · rw [min_eq_left (by omega)]
  · have outside : ¬ n < UInt64.size := not_lt.2 more
    rw [min_eq_right (by omega), count, count, UInt64.ofNatClamp, UInt64.ofNatClamp, dif_neg outside]
    rfl

/-! ### Four roundings -/

theorem error_le_of_roundings {c n x y p r : ℚ} (some : 0 < c) (filled : 0 < n) (part : Nearest c x)
    (whole : Nearest n y) (product : Nearest (x * 100) p) (quotient : Nearest (p / y) r) :
    |r - c * 100 / n| ≤ c * 100 / n / 10 ^ 6 := by
  have share : 0 < c * 100 / n := by positivity
  obtain ⟨x_ge, x_le⟩ := part.bounds some
  obtain ⟨y_ge, y_le⟩ := whole.bounds filled
  have x_pos : 0 < x := lt_of_lt_of_le (mul_pos some (by norm_num)) x_ge
  have y_pos : 0 < y := lt_of_lt_of_le (mul_pos filled (by norm_num)) y_ge
  obtain ⟨p_ge, p_le⟩ := product.bounds (by positivity)
  have p_pos : 0 < p := lt_of_lt_of_le (mul_pos (by positivity) (by norm_num)) p_ge
  obtain ⟨r_ge, r_le⟩ := quotient.bounds (div_pos p_pos y_pos)
  have unit : (0 : ℚ) ≤ 1 - 1 / 2 ^ 53 := by norm_num
  have lower : c * 100 / n * (1 - 1 / 10 ^ 6) ≤ r := by
    calc c * 100 / n * (1 - 1 / 10 ^ 6)
        ≤ c * 100 / n * ((1 - 1 / 2 ^ 53) ^ 3 / (1 + 1 / 2 ^ 53)) := by
          gcongr
          norm_num
      _ = c * (1 - 1 / 2 ^ 53) * 100 * (1 - 1 / 2 ^ 53) / (n * (1 + 1 / 2 ^ 53)) * (1 - 1 / 2 ^ 53) := by
          field_simp
      _ ≤ x * 100 * (1 - 1 / 2 ^ 53) / y * (1 - 1 / 2 ^ 53) := by gcongr
      _ ≤ p / y * (1 - 1 / 2 ^ 53) := by gcongr
      _ ≤ r := r_ge
  have upper : r ≤ c * 100 / n * (1 + 1 / 10 ^ 6) := by
    have divisor : 0 < n * (1 - 1 / 2 ^ 53) := mul_pos filled (by norm_num)
    calc r ≤ p / y * (1 + 1 / 2 ^ 53) := r_le
      _ ≤ x * 100 * (1 + 1 / 2 ^ 53) / y * (1 + 1 / 2 ^ 53) := by gcongr
      _ ≤ c * (1 + 1 / 2 ^ 53) * 100 * (1 + 1 / 2 ^ 53) / (n * (1 - 1 / 2 ^ 53)) * (1 + 1 / 2 ^ 53) := by
          gcongr
      _ = c * 100 / n * ((1 + 1 / 2 ^ 53) ^ 3 / (1 - 1 / 2 ^ 53)) := by
          field_simp
      _ ≤ c * 100 / n * (1 + 1 / 10 ^ 6) := by
          gcongr
          norm_num
  exact abs_le.2 ⟨by linarith, by linarith⟩

theorem denotes_hundred : Denotes 100.0 100 := by
  have bits : (100.0 : Float) = Float.ofBits 0x4059000000000000 := by decide +kernel
  rw [bits]
  exact ⟨100 * 2 ^ 46, -46, ⟨⟨by norm_num, rfl⟩, by norm_num, by norm_num⟩, by norm_num⟩

theorem percent_zero {n : ℕ} (filled : 0 < n) (fits : n < 2 ^ 64) : percent 0 n = 0 := by
  have none : count 0 * 100.0 = Float.ofBits 0 := by decide +kernel
  have zero : (Float.ofBits 0).toModel.unpack = .zero .positive := rfl
  obtain ⟨y, ⟨m, e, normal, -⟩, -⟩ := denotes_toFloat filled fits
  obtain ⟨pos, unpacked⟩ := normal.unpack_eq
  have quotient : Float.ofBits 0 / (UInt64.ofNat n).toFloat = Float.ofBits 0 := by
    show (⟨Float.Model.pack (UnpackedFloat.div double (Float.ofBits 0).toModel.unpack
      (UInt64.ofNat n).toFloat.toModel.unpack)⟩ : Float) = _
    rw [zero, unpacked]
    rfl
  rw [percent, none, count_eq fits, quotient]
  decide +kernel

section Share
variable {c n : ℕ} (least : c ≤ n) (filled : 0 < n)
include filled

include least in
theorem share_le : (c : ℚ) * 100 / n ≤ 100 := by
  rw [div_le_iff₀ (by exact_mod_cast filled), mul_comm (100 : ℚ)]
  gcongr

theorem floor_share : ⌊(c : ℚ) * 100 / n + 1 / 2⌋₊ = (200 * c + n) / (2 * n) := by
  rw [← Nat.floor_div_eq_div (K := ℚ)]
  congr 1
  push_cast
  field_simp
  ring

/-- As a fraction a share below a half percent is below it by at least this. -/
theorem gap_of_lt {k : ℕ} (less : (c : ℚ) * 100 / n + 1 / 2 < k) :
    1 / (2 * n) ≤ (k : ℚ) - (c * 100 / n + 1 / 2) := by
  have scale : (0 : ℚ) < 2 * n := by positivity
  have cleared : ((c : ℚ) * 100 / n + 1 / 2) * (2 * n) = (200 * c + n : ℕ) := by
    push_cast
    field_simp
    ring
  have whole : 200 * c + n < k * (2 * n) := by
    have scaled := mul_lt_mul_of_pos_right less scale
    rw [cleared] at scaled
    exact_mod_cast scaled
  have next : ((200 * c + n : ℕ) : ℚ) + 1 ≤ k * (2 * n) := by exact_mod_cast whole
  rw [div_le_iff₀ scale, sub_mul, cleared]
  linarith

end Share

section Rounded
variable {c n : ℕ} (least : c ≤ n) (filled : 0 < n) (fits : n < 2 ^ 64)
include least filled fits

theorem exists_quotient (some : 0 < c) : ∃ x y p r : ℚ, Nearest c x ∧ Nearest n y ∧ Nearest (x * 100) p ∧
    Nearest (p / y) r ∧ Denotes (count c * 100.0 / count n) r := by
  rw [count_eq fits, count_eq (least.trans_lt fits)]
  obtain ⟨x, dx, part⟩ := denotes_toFloat some (least.trans_lt fits)
  obtain ⟨y, dy, whole⟩ := denotes_toFloat filled fits
  have one : Short 1 := ⟨1, by norm_num, 0, by norm_num⟩
  have top : Short (2 ^ 64) := ⟨1, by norm_num, 64, by norm_num⟩
  have x_ge : 1 ≤ x := part.ge one (by exact_mod_cast some)
  have x_le : x ≤ 2 ^ 64 := part.le top (by exact_mod_cast (least.trans fits.le))
  have y_ge : 1 ≤ y := whole.ge one (by exact_mod_cast filled)
  have y_le : y ≤ 2 ^ 64 := whole.le top (by exact_mod_cast fits.le)
  have moderate : Moderate (x * 100) := by
    constructor <;> norm_num <;> linarith
  obtain ⟨p, dp, product⟩ := dx.mul denotes_hundred moderate
  have p_ge : 1 ≤ p := product.ge one (by linarith)
  have p_le : p ≤ 2 ^ 71 := product.le ⟨1, by norm_num, 71, by norm_num⟩ (by linarith)
  have moderate' : Moderate (p / y) := by
    constructor
    · calc (2 : ℚ) ^ (-100 : ℤ) ≤ 1 / 2 ^ 64 := by norm_num
        _ ≤ p / y := by gcongr
    · calc p / y ≤ 2 ^ 71 / 1 := by gcongr
        _ ≤ 2 ^ (100 : ℤ) := by norm_num
  obtain ⟨r, dr, quotient⟩ := dp.div dy moderate'
  exact ⟨x, y, p, r, part, whole, product, quotient, dr⟩

/-- The double that becomes the percentage is close to the exact share, and below `2 ^ 46` it is the nearest one:
there the counts and the product are doubles themselves. -/
theorem exists_rounded : ∃ r : ℚ, percent c n = ⌊r + 1 / 2⌋₊ ∧ |r - c * 100 / n| ≤ c * 100 / n / 10 ^ 6 ∧
    (n < 2 ^ 46 → Nearest (c * 100 / n) r) := by
  rcases Nat.eq_zero_or_pos c with rfl | some
  · rw [percent_zero filled fits, Nat.cast_zero, zero_mul, zero_div]
    exact ⟨0, by norm_num, by norm_num, fun _ => nearest_self ⟨0, by norm_num, 0, by norm_num⟩⟩
  · obtain ⟨x, y, p, r, part, whole, product, quotient, denotes⟩ := exists_quotient least filled fits some
    have error := error_le_of_roundings (by exact_mod_cast some) (by exact_mod_cast filled) part whole product
      quotient
    have most := share_le least filled
    have small : r ≤ 2 ^ 63 := by linarith [(abs_le.1 error).2]
    refine ⟨r, by rw [percent, wholeNumber_of_denotes denotes small], error, fun few => ?_⟩
    have exact : x = c := part.eq ⟨c, by omega, 0, by norm_num⟩
    have exact' : y = n := whole.eq ⟨n, by omega, 0, by norm_num⟩
    have scaled : p = x * 100 := by
      refine product.eq ⟨c * 100, by omega, 0, ?_⟩
      rw [exact]
      push_cast
      ring
    rwa [scaled, exact, exact'] at quotient

/-- Half percents are doubles, and the nearest double to a share that is less by `1 / 2 ^ 47` is less too. -/
theorem percent_eq (few : n < 2 ^ 46) : percent c n = (200 * c + n) / (2 * n) := by
  obtain ⟨r, rounded, -, quotient⟩ := exists_rounded least filled fits
  have nearest := quotient few
  have most := share_le least filled
  rw [rounded, ← floor_share filled]
  refine eq_of_forall_le_iff fun k => ?_
  rcases Nat.eq_zero_or_pos k with rfl | pos
  · simp only [Nat.zero_le]
  rw [Nat.le_floor_iff' pos.ne', Nat.le_floor_iff' pos.ne']
  constructor
  · intro reached
    by_contra! less
    have error := abs_le.1 (nearest.error_le (t := -46) (by positivity) (most.trans (by norm_num)))
    have gap := gap_of_lt filled less
    have far : (2 : ℚ) ^ (-46 : ℤ) / 2 < 1 / (2 * n) := by
      have few' : (n : ℚ) < 2 ^ 46 := by exact_mod_cast few
      have filled' : (0 : ℚ) < n := by exact_mod_cast filled
      rw [zpow_neg, lt_div_iff₀ (by positivity)]
      norm_num
      linarith
    linarith [error.2]
  · intro reached
    have small : k < 101 := by
      have bound : (k : ℚ) < (101 : ℕ) := by
        push_cast
        linarith
      exact_mod_cast bound
    have met := nearest.ge (short_half pos (by omega)) (by linarith)
    linarith

end Rounded

/-- A little further on a share below a half percent is rounded to it. -/
example : percent 70016900456910 70368744177799 = 100 ∧
    (200 * 70016900456910 + 70368744177799) / (2 * 70368744177799) = 99 := by decide +kernel

/-! ### A hundred percent -/

section Hundred
variable {c n : ℕ} (least : c ≤ n) (filled : 0 < n)
include least filled

theorem exists_rounded_le (fits : n < 2 ^ 64) : ∃ r : ℚ, |r - c * 100 / n| ≤ 1 / 10 ^ 4 ∧ percent c n ≤ 100 ∧
    (percent c n = 100 ↔ 199 / 2 ≤ r) := by
  obtain ⟨r, rounded, error, -⟩ := exists_rounded least filled fits
  have most := share_le least filled
  have near : |r - c * 100 / n| ≤ 1 / 10 ^ 4 := by linarith
  obtain ⟨lower, upper⟩ := abs_le.1 near
  have share : 0 ≤ (c : ℚ) * 100 / n := by positivity
  refine ⟨r, near, ?_, ?_⟩
  · rw [rounded, ← Nat.lt_succ_iff, Nat.floor_lt (by linarith)]
    push_cast
    linarith
  · rw [rounded, Nat.floor_eq_iff (by linarith)]
    push_cast
    constructor
    · rintro ⟨reached, -⟩
      linarith
    · intro reached
      constructor <;> linarith

theorem percent_le : percent c n ≤ 100 := by
  have few : min n (2 ^ 64 - 1) < 2 ^ 64 := by omega
  obtain ⟨r, -, most, -⟩ := exists_rounded_le (min_le_min_right (2 ^ 64 - 1) least) (by omega) few
  rwa [percent, count_min, count_min] at most

theorem percent_eq_hundred_of_le (fits : n < 2 ^ 64) (close : 201 * (n - c) ≤ n) : percent c n = 100 := by
  obtain ⟨r, near, -, full⟩ := exists_rounded_le least filled fits
  have share : (99502 / 1000 : ℚ) ≤ c * 100 / n := by
    have all : 200 * (n : ℚ) ≤ 201 * c := by exact_mod_cast (by omega : 200 * n ≤ 201 * c)
    rw [le_div_iff₀ (by exact_mod_cast filled)]
    linarith
  refine full.2 ?_
  linarith [(abs_le.1 near).1]

theorem le_of_percent_eq_hundred (fits : n < 2 ^ 64) (hundred : percent c n = 100) : 199 * (n - c) ≤ n := by
  obtain ⟨r, near, -, full⟩ := exists_rounded_le least filled fits
  have share : (99499 / 1000 : ℚ) ≤ c * 100 / n := by
    have reached := full.1 hundred
    linarith [(abs_le.1 near).2]
  have all : 198 * (n : ℚ) ≤ 199 * c := by
    rw [le_div_iff₀ (by exact_mod_cast filled)] at share
    linarith
  have whole : 198 * n ≤ 199 * c := by exact_mod_cast all
  omega

theorem percent_eq_hundred_iff (few : n < 2 ^ 46) : percent c n = 100 ↔ 200 * (n - c) ≤ n := by
  rw [percent_eq least filled (by omega) few, Nat.div_eq_iff (by omega)]
  omega

end Hundred

theorem percent_self {n : ℕ} (filled : 0 < n) : percent n n = 100 := by
  have few : min n (2 ^ 64 - 1) < 2 ^ 64 := by omega
  have full := percent_eq_hundred_of_le (le_refl (min n (2 ^ 64 - 1))) (by omega) few (by omega)
  rwa [percent, count_min] at full

end Prompt.Transform
