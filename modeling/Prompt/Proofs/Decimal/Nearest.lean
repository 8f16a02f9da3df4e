import Mathlib

/-!
# The nearest double

An operation on doubles takes the leading digits of the exact result, and two bits that say what stands behind
them (`Represents`). Rounding them gives a number that no other one with 53 binary digits is nearer than
(`nearest_of_round`). So products and quotients, and whole numbers as doubles, are the nearest doubles to the exact
ones, unless they leave the range of the exponent (`Denotes.mul`, `Denotes.div`, `denotes_toFloat`).
-/

namespace Prompt.Decimal
open Float.Model Float.Model.UnpackedFloat

abbrev double : Format := Format.binary64

/-! ### Nearest numbers -/

/-- A number with at most 53 binary digits. But for the range of the exponent these are the doubles. -/
def Short (y : ℚ) : Prop := ∃ m : ℕ, m < 2 ^ 53 ∧ ∃ e : ℤ, y = m * 2 ^ e

theorem short_of_le {m : ℕ} (small : m ≤ 2 ^ 53) (e : ℤ) : Short (m * 2 ^ e) := by
  rcases small.lt_or_eq with less | rfl
  · exact ⟨m, less, e, rfl⟩
  · refine ⟨2 ^ 52, by norm_num, e + 1, ?_⟩
    rw [zpow_add_one₀ (by norm_num)]
    push_cast
    ring

structure Nearest (q y : ℚ) : Prop where
  short : Short y
  near : ∀ z, Short z → |y - q| ≤ |z - q|

theorem nearest_self {q : ℚ} (short : Short q) : Nearest q q :=
  ⟨short, fun z _ => by
    rw [sub_self, abs_zero]
    exact abs_nonneg _⟩

namespace Nearest
variable {q y : ℚ} (h : Nearest q y)
include h

theorem le {z : ℚ} (short : Short z) (bound : q ≤ z) : y ≤ z := by
  by_contra! more
  have near := h.near z short
  rw [abs_of_nonneg (by linarith), abs_of_nonneg (by linarith)] at near
  linarith

theorem ge {z : ℚ} (short : Short z) (bound : z ≤ q) : z ≤ y := by
  by_contra! less
  have near := h.near z short
  rw [abs_of_nonpos (by linarith), abs_of_nonpos (by linarith)] at near
  linarith

theorem eq (short : Short q) : y = q := le_antisymm (h.le short le_rfl) (h.ge short le_rfl)

/-- A number with 53 digits before the place of `2 ^ t` is met up to half of that. -/
theorem error_le {t : ℤ} (least : 0 ≤ q) (most : q ≤ 2 ^ 53 * 2 ^ t) : |y - q| ≤ 2 ^ t / 2 := by
  have unit : (0 : ℚ) < 2 ^ t := by positivity
  obtain ⟨s, rfl⟩ : ∃ s, q = s * 2 ^ t := ⟨q / 2 ^ t, (div_mul_cancel₀ q unit.ne').symm⟩
  have positive : 0 ≤ s := nonneg_of_mul_nonneg_left least unit
  have digits : s ≤ 2 ^ 53 := le_of_mul_le_mul_right most unit
  have lower := Nat.floor_le (show 0 ≤ s + 1 / 2 by linarith)
  have upper := Nat.lt_floor_add_one (s + 1 / 2)
  have small : ⌊s + 1 / 2⌋₊ ≤ 2 ^ 53 := by
    refine Nat.lt_succ_iff.1 ((Nat.floor_lt (by linarith)).2 ?_)
    push_cast
    linarith
  calc |y - s * 2 ^ t| ≤ |⌊s + 1 / 2⌋₊ * 2 ^ t - s * 2 ^ t| := h.near _ (short_of_le small t)
    _ = |⌊s + 1 / 2⌋₊ - s| * 2 ^ t := by rw [← sub_mul, abs_mul, abs_of_pos unit]
    _ ≤ 1 / 2 * 2 ^ t := by
        gcongr
        exact abs_le.2 ⟨by linarith, by linarith⟩
    _ = 2 ^ t / 2 := by ring

theorem bounds (pos : 0 < q) : q * (1 - 1 / 2 ^ 53) ≤ y ∧ y ≤ q * (1 + 1 / 2 ^ 53) := by
  obtain ⟨k, lower, upper⟩ := exists_mem_Ico_zpow pos (show (1 : ℚ) < 2 by norm_num)
  have unit : (2 : ℚ) ^ k = 2 ^ 52 * 2 ^ (k - 52) := by
    rw [← zpow_natCast, ← zpow_add₀ (by norm_num)]
    congr 1
    omega
  have most : q ≤ 2 ^ 53 * 2 ^ (k - 52) := by
    rw [zpow_add_one₀ (by norm_num), unit] at upper
    linarith
  obtain ⟨below, above⟩ := abs_le.1 (h.error_le pos.le most)
  rw [unit] at lower
  constructor <;> linarith

end Nearest

/-! ### A significand and two bits -/

/-- What a significand and the bits behind it say of the exact number. -/
def Represents : ExtendedMantissa → ℚ → Prop
  | ⟨m, false, false⟩, s => s = m
  | ⟨m, false, true⟩, s => m < s ∧ s < m + 1 / 2
  | ⟨m, true, false⟩, s => s = m + 1 / 2
  | ⟨m, true, true⟩, s => m + 1 / 2 < s ∧ s < m + 1

theorem represents_exact (m : ℕ) : Represents (.ofMantissaAndAccuracy m .exact) m := rfl

theorem represents_quotient (m : ℕ) {n : ℕ} (pos : 0 < n) :
    Represents (.ofMantissaAndAccuracy (m / n) (accuracyOfFraction (m % n) n)) (m / n : ℚ) := by
  have positive : (0 : ℚ) < n := by exact_mod_cast pos
  have rest : ((m % n : ℕ) : ℚ) < n := by exact_mod_cast Nat.mod_lt m pos
  have exact : (m / n : ℚ) = (m / n : ℕ) + (m % n : ℕ) / n := by
    have parts : (n : ℚ) * (m / n : ℕ) + (m % n : ℕ) = m := by exact_mod_cast Nat.div_add_mod m n
    field_simp
    linarith
  unfold accuracyOfFraction
  split
  · next none =>
      show (m / n : ℚ) = (m / n : ℕ)
      rw [exact, none, Nat.cast_zero, zero_div, add_zero]
  · next some =>
      have above : (0 : ℚ) < (m % n : ℕ) := by exact_mod_cast Nat.pos_of_ne_zero some
      rw [exact]
      cases place : compare (2 * (m % n)) n with
      | lt =>
          have half : 2 * ((m % n : ℕ) : ℚ) < n := by exact_mod_cast compare_lt_iff_lt.1 place
          refine ⟨lt_add_of_pos_right _ (div_pos above positive), (add_lt_add_iff_left _).2 ?_⟩
          rw [div_lt_div_iff₀ positive (by norm_num)]
          linarith
      | eq =>
          have half : 2 * ((m % n : ℕ) : ℚ) = n := by exact_mod_cast compare_eq_iff_eq.1 place
          show _ + _ = _ + _
          rw [add_right_inj, div_eq_div_iff positive.ne' (by norm_num)]
          linarith
      | gt =>
          have half : (n : ℚ) < 2 * (m % n : ℕ) := by exact_mod_cast compare_gt_iff_gt.1 place
          refine ⟨(add_lt_add_iff_left _).2 ?_, (add_lt_add_iff_left _).2 ((div_lt_one positive).2 rest)⟩
          rw [div_lt_div_iff₀ (by norm_num) positive]
          linarith

theorem roundedMantissa_bounds (em : ExtendedMantissa) :
    em.mantissa ≤ em.roundedMantissa ∧ em.roundedMantissa ≤ em.mantissa + 1 := by
  obtain ⟨m, round, sticky⟩ := em
  cases round <;> cases sticky <;>
    simp [ExtendedMantissa.roundedMantissa, ExtendedMantissa.accuracy, Accuracy.roundToNearestEven]
  omega

theorem shiftRight_succ (em : ExtendedMantissa) (k : ℕ) :
    em >>> (k + 1) = (em >>> k).shiftRightOne := rfl

theorem mantissa_shiftRight (em : ExtendedMantissa) (k : ℕ) :
    (em >>> k).mantissa = em.mantissa / 2 ^ k := by
  induction k with
  | zero => simp [HShiftRight.hShiftRight, Nat.repeat]
  | succ k ih =>
      rw [shiftRight_succ, pow_succ, ← Nat.div_div_eq_div_mul, ← ih]
      rfl

theorem mantissa_ofMantissaAndAccuracy (m : ℕ) (accuracy : Accuracy) :
    (ExtendedMantissa.ofMantissaAndAccuracy m accuracy).mantissa = m := by
  rcases accuracy with _ | relative
  · rfl
  · cases relative <;> rfl

namespace Represents
variable {em : ExtendedMantissa} {s : ℚ} (h : Represents em s)
include h

theorem le : (em.mantissa : ℚ) ≤ s := by
  obtain ⟨m, round, sticky⟩ := em
  cases round <;> cases sticky <;> simp only [Represents] at h ⊢ <;> linarith

theorem shiftRightOne : Represents em.shiftRightOne (s / 2) := by
  obtain ⟨m, round, sticky⟩ := em
  have parts : 2 * ((m / 2 : ℕ) : ℚ) + (m % 2 : ℕ) = m := by exact_mod_cast Nat.div_add_mod m 2
  rcases Nat.mod_two_eq_zero_or_one m with even | odd
  · rw [even] at parts
    cases round <;> cases sticky <;>
      simp only [Represents, ExtendedMantissa.shiftRightOne, even, bne_self_eq_false, Bool.or_false,
        Bool.or_true, Bool.or_self] at h ⊢ <;>
      norm_num at parts <;> first | linarith | exact ⟨by linarith, by linarith⟩
  · rw [odd] at parts
    cases round <;> cases sticky <;>
      simp only [Represents, ExtendedMantissa.shiftRightOne, odd, Nat.reduceBneDiff, Bool.or_false,
        Bool.or_true, Bool.or_self] at h ⊢ <;>
      norm_num at parts <;> first | linarith | exact ⟨by linarith, by linarith⟩

theorem shiftRight (k : ℕ) : Represents (em >>> k) (s / 2 ^ k) := by
  induction k with
  | zero => simpa [HShiftRight.hShiftRight, Nat.repeat] using h
  | succ k ih =>
      rw [shiftRight_succ, pow_succ, ← div_div]
      exact ih.shiftRightOne

theorem error_le : |em.roundedMantissa - s| ≤ 1 / 2 := by
  obtain ⟨m, round, sticky⟩ := em
  rw [abs_le]
  cases round <;> cases sticky <;>
    simp only [Represents, ExtendedMantissa.roundedMantissa, ExtendedMantissa.accuracy,
      Accuracy.roundToNearestEven] at h ⊢
  case true.false =>
      have last : ((m % 2 : ℕ) : ℚ) ≤ 1 := by exact_mod_cast Nat.lt_succ_iff.1 (Nat.mod_lt m two_pos)
      have least : (0 : ℚ) ≤ (m % 2 : ℕ) := by positivity
      push_cast at last least ⊢
      constructor <;> linarith
  all_goals
    push_cast
    constructor <;> linarith

/-- No whole number is nearer. -/
theorem error_le_error (j : ℕ) : |em.roundedMantissa - s| ≤ |j - s| := by
  by_cases same : j = em.roundedMantissa
  · rw [same]
  · have apart : (1 : ℚ) ≤ |(j : ℚ) - em.roundedMantissa| := by
      have whole : (j : ℤ) - em.roundedMantissa ≠ 0 := by omega
      exact_mod_cast Int.one_le_abs whole
    have between := abs_sub_le (j : ℚ) s em.roundedMantissa
    have half := h.error_le
    rw [abs_sub_comm s] at between
    linarith

/-- With 53 digits before the bits no shorter number is nearer either: one with finer digits lies below. -/
theorem nearest (long : 2 ^ 52 ≤ em.mantissa) (short : em.mantissa < 2 ^ 53) (e : ℤ) :
    Nearest (s * 2 ^ e) (em.roundedMantissa * 2 ^ e) := by
  have unit : (0 : ℚ) < 2 ^ e := by positivity
  have scale (a : ℚ) : |a * 2 ^ e - s * 2 ^ e| = |a - s| * 2 ^ e := by
    rw [← sub_mul, abs_mul, abs_of_pos unit]
  refine ⟨short_of_le ((roundedMantissa_bounds em).2.trans short) e, ?_⟩
  rintro z ⟨x, few, t, rfl⟩
  rcases le_or_gt e t with coarse | fine
  · obtain ⟨k, rfl⟩ : ∃ k : ℕ, t = e + k := ⟨(t - e).toNat, by omega⟩
    have whole : (x : ℚ) * 2 ^ (e + k) = (x * 2 ^ k : ℕ) * 2 ^ e := by
      rw [zpow_add₀ (by norm_num), zpow_natCast]
      push_cast
      ring
    rw [whole, scale, scale]
    exact mul_le_mul_of_nonneg_right (h.error_le_error _) unit.le
  · have least : ((2 ^ 52 : ℕ) : ℚ) ≤ s := (Nat.cast_le.2 long).trans h.le
    have below : (x : ℚ) * 2 ^ t ≤ (2 ^ 52 : ℕ) * 2 ^ e := by
      calc (x : ℚ) * 2 ^ t ≤ (2 ^ 53 : ℕ) * 2 ^ (e - 1) := by
            gcongr
            · norm_num
            · omega
        _ = (2 ^ 52 : ℕ) * 2 ^ e := by
            rw [zpow_sub_one₀ (by norm_num)]
            push_cast
            ring
    have nearer := mul_le_mul_of_nonneg_right (h.error_le_error (2 ^ 52)) unit.le
    generalize ((2 ^ 52 : ℕ) : ℚ) = first at least below nearer
    rw [abs_sub_comm first, abs_of_nonneg (sub_nonneg.2 least), sub_mul] at nearer
    calc |em.roundedMantissa * 2 ^ e - s * 2 ^ e| = |em.roundedMantissa - s| * 2 ^ e := scale _
      _ ≤ s * 2 ^ e - x * 2 ^ t := by linarith
      _ ≤ |x * 2 ^ t - s * 2 ^ e| := by
          rw [abs_sub_comm]
          exact le_abs_self _

end Represents

/-! ### Rounding -/

theorem targetExponent_eq (m : ℕ) (e : ℤ) :
    double.targetExponent (totalExponent m e) = max (m.log2 + e - 52) (-1074) := by
  simp only [Format.targetExponent, totalExponent, Format.mantissaBits, Format.minExponent]
  norm_num
  congr 1
  ring

theorem log2_of_bounds {m k : ℕ} (lower : 2 ^ k ≤ m) (upper : m < 2 ^ (k + 1)) : m.log2 = k := by
  have filled : m ≠ 0 := (lt_of_lt_of_le (by positivity) lower).ne'
  exact le_antisymm (Nat.lt_succ_iff.1 ((Nat.log2_lt filled).2 upper)) ((Nat.le_log2 filled).2 lower)

section Rounding
variable {m : ℕ} {e : ℤ} {accuracy : Accuracy}

theorem shiftToTargetExponent_of_log2 {k : ℕ} (digits : m.log2 = 52 + k) (least : -1074 ≤ e) :
    shiftToTargetExponent double m e accuracy =
      (ExtendedMantissa.ofMantissaAndAccuracy m accuracy >>> k, e + k) := by
  have amount : (max ((m.log2 : ℤ) + e - 52) (-1074) - e).toNat = k := by omega
  rw [shiftToTargetExponent, targetExponent_eq, shiftToExponent]
  simp only [amount]

theorem roundWithAccuracy_of_first {sign : Sign} {em em' : ExtendedMantissa} {e' e'' : ℤ}
    (first : shiftToTargetExponent double m e accuracy = (em, e'))
    (second : shiftToTargetExponent double em.roundedMantissa e' .exact = (em', e''))
    (filled : 0 < em'.mantissa) :
    roundWithAccuracy double sign m e accuracy = .finite sign em'.mantissa e'' filled := by
  rw [roundWithAccuracy, first]
  simp only [second, filled.ne', dif_neg, not_false_eq_true]

/-- Rounding leaves 53 digits. Where they run over to 54, the last one is a zero. -/
theorem nearest_of_round {s : ℚ} (sign : Sign) (exact : Represents (.ofMantissaAndAccuracy m accuracy) s)
    (long : 2 ^ 52 ≤ m) (least : -1074 ≤ e) :
    ∃ M E pos, roundWithAccuracy double sign m e accuracy = .finite sign M E pos ∧
      2 ^ 52 ≤ M ∧ M < 2 ^ 53 ∧ e ≤ E ∧ Nearest (s * 2 ^ e) (M * 2 ^ E) := by
  have filled : m ≠ 0 := (lt_of_lt_of_le (by positivity) long).ne'
  obtain ⟨k, digits⟩ : ∃ k, m.log2 = 52 + k := Nat.exists_eq_add_of_le ((Nat.le_log2 filled).2 long)
  obtain ⟨em, shifted⟩ : ∃ em, em = ExtendedMantissa.ofMantissaAndAccuracy m accuracy >>> k := ⟨_, rfl⟩
  have kept : em.mantissa = m / 2 ^ k := by
    rw [shifted, mantissa_shiftRight, mantissa_ofMantissaAndAccuracy]
  have lower : 2 ^ 52 ≤ em.mantissa := by
    rw [kept, Nat.le_div_iff_mul_le (by positivity), ← pow_add, ← digits]
    exact Nat.log2_self_le filled
  have upper : em.mantissa < 2 ^ 53 := by
    rw [kept, Nat.div_lt_iff_lt_mul (by positivity), ← pow_add]
    exact (Nat.log2_lt filled).1 (by omega)
  have first : shiftToTargetExponent double m e accuracy = (em, e + k) := by
    rw [shiftToTargetExponent_of_log2 digits least, shifted]
  have nearest : Nearest (s * 2 ^ e) (em.roundedMantissa * 2 ^ (e + k)) := by
    have places : s / 2 ^ k * 2 ^ (e + k) = s * 2 ^ e := by
      rw [zpow_add₀ (by norm_num), zpow_natCast, mul_comm ((2 : ℚ) ^ e), ← mul_assoc,
        div_mul_cancel₀ s (by positivity)]
    rw [← places]
    exact (shifted ▸ exact.shiftRight k).nearest lower upper (e + k)
  obtain ⟨above, below⟩ := roundedMantissa_bounds em
  by_cases short : em.roundedMantissa < 2 ^ 53
  · have second : shiftToTargetExponent double em.roundedMantissa (e + k) .exact = _ :=
      shiftToTargetExponent_of_log2 (k := 0) (log2_of_bounds (lower.trans above) short) (by omega)
    have pos : 0 < em.roundedMantissa := lt_of_lt_of_le (by positivity) (lower.trans above)
    refine ⟨em.roundedMantissa, e + k, pos, ?_, lower.trans above, short, by omega, nearest⟩
    rw [roundWithAccuracy_of_first first second pos, Nat.cast_zero, add_zero]
    rfl
  · have carry : em.roundedMantissa = 2 ^ 53 := by omega
    rw [carry] at nearest
    have second : shiftToTargetExponent double em.roundedMantissa (e + k) .exact = _ :=
      shiftToTargetExponent_of_log2 (k := 1) (by rw [carry, Nat.log2_two_pow]) (by omega)
    have half : ((ExtendedMantissa.ofMantissaAndAccuracy em.roundedMantissa .exact) >>> 1).mantissa =
        2 ^ 52 := by
      rw [mantissa_shiftRight, mantissa_ofMantissaAndAccuracy, carry]
      norm_num
    refine ⟨2 ^ 52, e + k + 1, by positivity, ?_, le_rfl, by norm_num, by omega, ?_⟩
    · rw [roundWithAccuracy_of_first first second (half ▸ by positivity)]
      simp only [half, Nat.cast_one]
    · have same : ((2 ^ 52 : ℕ) : ℚ) * 2 ^ (e + k + 1) = (2 ^ 53 : ℕ) * 2 ^ (e + k) := by
        rw [zpow_add_one₀ (by norm_num)]
        push_cast
        ring
      rwa [same]

end Rounding

/-! ### Packing -/

theorem unpackSign_packComponents (sign : Sign) (b : BitVec 11) (m : BitVec 52) :
    Sign.ofBitVec (unpackSign (packComponents double sign b m)) = sign := by
  have bit : unpackSign (packComponents double sign b m) = sign.toBitVec := by
    rw [unpackSign, packComponents, BitVec.extractLsb, BitVec.extractLsb'_append_eq_of_le (by decide),
      BitVec.extractLsb'_append_eq_of_le (by decide)]
    exact BitVec.extractLsb'_eq_self
  rw [bit]
  cases sign <;> rfl

theorem unpack_pack_of_normal {sign : Sign} {m : ℕ} {e : ℤ} (pos : 0 < m) (lower : 2 ^ 52 ≤ m)
    (upper : m < 2 ^ 53) (least : -1074 ≤ e) (most : e ≤ 971) :
    (Float.Model.pack (.finite sign m e pos)).unpack = .finite sign m e pos := by
  have digits : m.log2 = 52 := log2_of_bounds lower upper
  obtain ⟨b, biased⟩ : ∃ b : ℕ, e = b - 1075 := ⟨(e + 1075).toNat, by omega⟩
  subst biased
  have amount : ((b : ℤ) - 1075 + (1023 : ℕ) + (52 : ℕ)).toNat = b := by omega
  have packed : pack double (.finite sign m ((b : ℤ) - 1075) pos) =
      packComponents double sign (BitVec.ofNat 11 b) (BitVec.ofNat 52 m) := by
    show (if 2 ^ 11 ≤ ((b : ℤ) - 1075 + (1023 : ℕ) + (52 : ℕ)).toNat + 1 then
        packedInfinity double sign
      else if m.log2 + 1 = 53 then packComponents double sign
        (BitVec.ofNat 11 ((b : ℤ) - 1075 + (1023 : ℕ) + (52 : ℕ)).toNat) (BitVec.ofNat 52 m)
      else packComponents double sign 0#11 (BitVec.ofNat 52 m)) = _
    rw [amount, if_neg (by omega), if_pos (by rw [digits])]
  have field : (BitVec.ofNat 11 b).toNat = b := Nat.mod_eq_of_lt (by omega)
  have numeric : BitVec.ofNat 11 b ≠ -1#11 := fun same => by
    have value := congrArg BitVec.toNat same
    rw [field] at value
    exact absurd value (by simp; omega)
  have normal : BitVec.ofNat 11 b ≠ 0#11 := fun same => by
    have value := congrArg BitVec.toNat same
    rw [field, BitVec.toNat_zero] at value
    omega
  have fraction : (1#1 ++ BitVec.ofNat 52 m).toNat = m := by
    rw [BitVec.toNat_append, ← Nat.shiftLeft_add_eq_or_of_lt (BitVec.ofNat 52 m).isLt,
      Nat.shiftLeft_eq, BitVec.toNat_ofNat, BitVec.toNat_ofNat]
    omega
  show UnpackedFloat.unpack double (UnpackedFloat.pack double _) = _
  rw [packed, UnpackedFloat.unpack]
  simp only [unpackExponent_packComponents, unpackMantissa_packComponents, unpackSign_packComponents]
  rw [if_neg numeric, if_neg normal]
  simp only [fraction, field]
  rfl

/-- The greatest double. -/
def greatestValue : ℚ := (2 ^ 53 - 1 : ℕ) * 2 ^ (971 : ℤ)

theorem short_greatestValue : Short greatestValue := ⟨_, by norm_num, _, rfl⟩

theorem exponent_le {m : ℕ} {e : ℤ} (long : 2 ^ 52 ≤ m) (bound : (m : ℚ) * 2 ^ e ≤ greatestValue) :
    e ≤ 971 := by
  by_contra more
  have next : (2 : ℚ) ^ (972 : ℤ) ≤ 2 ^ e := zpow_le_zpow_right₀ (by norm_num) (by omega)
  have least : ((2 ^ 52 : ℕ) : ℚ) * 2 ^ (972 : ℤ) ≤ m * 2 ^ e := by
    gcongr
  have apart : greatestValue < ((2 ^ 52 : ℕ) : ℚ) * 2 ^ (972 : ℤ) := by
    rw [greatestValue, show (972 : ℤ) = 971 + 1 from rfl, zpow_add_one₀ (by norm_num)]
    have scale : (0 : ℚ) < 2 ^ (971 : ℤ) := by positivity
    generalize (2 : ℚ) ^ (971 : ℤ) = unit at scale
    push_cast
    linarith
  linarith

/-- A double with all of its digits, `± m * 2 ^ e`. -/
structure IsNormal (x : Float) (sign : Sign) (m : ℕ) (e : ℤ) : Prop where
  unpack_eq : ∃ pos, x.toModel.unpack = .finite sign m e pos
  lower : 2 ^ 52 ≤ m
  upper : m < 2 ^ 53

namespace IsNormal
variable {x : Float} {sign : Sign} {m : ℕ} {e : ℤ} (normal : IsNormal x sign m e)
include normal

theorem isFinite : x.isFinite = true := by
  obtain ⟨pos, unpacked⟩ := normal.unpack_eq
  show x.toModel.unpack.isFinite = true
  rw [unpacked]
  rfl

theorem isInf : x.isInf = false := by
  obtain ⟨pos, unpacked⟩ := normal.unpack_eq
  show x.toModel.unpack.isInf = false
  rw [unpacked]
  rfl

theorem isNaN : x.isNaN = false := by
  obtain ⟨pos, unpacked⟩ := normal.unpack_eq
  show x.toModel.unpack.isNaN = false
  rw [unpacked]
  rfl

end IsNormal

theorem isNormal_of_round {x : Float} {sign : Sign} {m : ℕ} {e : ℤ} {accuracy : Accuracy} {s : ℚ}
    (exact : Represents (.ofMantissaAndAccuracy m accuracy) s) (long : 2 ^ 52 ≤ m) (least : -1074 ≤ e)
    (bound : s * 2 ^ e ≤ greatestValue)
    (rounded : x.toModel = Float.Model.pack (roundWithAccuracy double sign m e accuracy)) :
    ∃ M E, IsNormal x sign M E ∧ e ≤ E ∧ Nearest (s * 2 ^ e) (M * 2 ^ E) := by
  obtain ⟨M, E, pos, same, lower, upper, above, nearest⟩ := nearest_of_round sign exact long least
  have most : E ≤ 971 := exponent_le lower (nearest.le short_greatestValue bound)
  refine ⟨M, E, ⟨⟨pos, ?_⟩, lower, upper⟩, above, nearest⟩
  rw [rounded, same, unpack_pack_of_normal pos lower upper (by omega) most]

/-! ### Operations -/

section Whole
variable {n : ℕ} (pos : 0 < n) (fits : n < 2 ^ 64)
include pos fits

theorem toModel_toFloat :
    (UInt64.ofNat n).toFloat.toModel = Float.Model.pack
      (roundWithAccuracy double .positive (n * 2 ^ (52 - n.log2)) (-(52 - n.log2 : ℕ)) .exact) := by
  have same : (UInt64.ofNat n).toNat = n := Nat.mod_eq_of_lt fits
  show Float.Model.pack (UnpackedFloat.normalize double ((UInt64.ofNat n).toNat : ℤ) 0 .positive) = _
  have positive : compare (n : ℤ) 0 = .gt := by
    rw [Int.compare_eq_gt]
    omega
  have amount : (-max ((n.log2 : ℤ) + 0 - 52) (-1074)).toNat = 52 - n.log2 := by omega
  rw [same, UnpackedFloat.normalize, positive]
  simp only [UnpackedFloat.round, decreaseExponent, targetExponent_eq, Int.toNat_natCast, zero_sub, amount,
    Nat.shiftLeft_eq]

theorem isNormal_toFloat : ∃ m e, IsNormal (UInt64.ofNat n).toFloat .positive m e ∧ -52 ≤ e ∧
    Nearest n (m * 2 ^ e) := by
  have value : ((n * 2 ^ (52 - n.log2) : ℕ) : ℚ) * 2 ^ (-(52 - n.log2 : ℕ) : ℤ) = n := by
    rw [zpow_neg, zpow_natCast]
    push_cast
    field_simp
  have long : 2 ^ 52 ≤ n * 2 ^ (52 - n.log2) := by
    calc 2 ^ 52 ≤ 2 ^ n.log2 * 2 ^ (52 - n.log2) := by
          rw [← pow_add]
          exact Nat.pow_le_pow_right (by norm_num) (by omega)
      _ ≤ n * 2 ^ (52 - n.log2) := Nat.mul_le_mul_right _ (Nat.log2_self_le pos.ne')
  have most : (n : ℚ) ≤ greatestValue := by
    calc (n : ℚ) ≤ 1 * 2 ^ (64 : ℤ) := by
          rw [one_mul]
          exact_mod_cast fits.le
      _ ≤ greatestValue := by
          unfold greatestValue
          gcongr <;> norm_num
  obtain ⟨M, E, normal, above, nearest⟩ := isNormal_of_round (x := (UInt64.ofNat n).toFloat)
    (represents_exact _) long (by omega) (value.trans_le most) (toModel_toFloat pos fits)
  exact ⟨M, E, normal, by omega, value ▸ nearest⟩

end Whole

section Binary
variable {x y : Float} {s s' : Sign} {m n : ℕ} {e f : ℤ} (hx : IsNormal x s m e) (hy : IsNormal y s' n f)
include hx hy

theorem IsNormal.mul (least : -1074 ≤ e + f) (bound : (m : ℚ) * 2 ^ e * (n * 2 ^ f) ≤ greatestValue) :
    ∃ M E, IsNormal (x * y) (s * s') M E ∧ Nearest (m * 2 ^ e * (n * 2 ^ f)) (M * 2 ^ E) := by
  obtain ⟨px, hx'⟩ := hx.unpack_eq
  obtain ⟨py, hy'⟩ := hy.unpack_eq
  have long : 2 ^ 52 ≤ m * n :=
    hx.lower.trans (Nat.le_mul_of_pos_right m (lt_of_lt_of_le (by positivity) hy.lower))
  have rounded : (x * y).toModel =
      Float.Model.pack (roundWithAccuracy double (s * s') (m * n) (e + f) .exact) := by
    show Float.Model.pack (UnpackedFloat.mul double x.toModel.unpack y.toModel.unpack) = _
    rw [hx', hy']
    rfl
  have value : ((m * n : ℕ) : ℚ) * 2 ^ (e + f) = m * 2 ^ e * (n * 2 ^ f) := by
    rw [zpow_add₀ (by norm_num)]
    push_cast
    ring
  obtain ⟨M, E, product, -, nearest⟩ :=
    isNormal_of_round (represents_exact _) long least (value.trans_le bound) rounded
  exact ⟨M, E, product, value ▸ nearest⟩

/-- The quotient of two significands has 53 or 54 digits behind 53 more zeros. -/
theorem IsNormal.div (least : -1021 ≤ e - f) (bound : (m : ℚ) * 2 ^ e / (n * 2 ^ f) ≤ greatestValue) :
    ∃ M E, IsNormal (x / y) (s / s') M E ∧ Nearest (m * 2 ^ e / (n * 2 ^ f)) (M * 2 ^ E) := by
  obtain ⟨px, hx'⟩ := hx.unpack_eq
  obtain ⟨py, hy'⟩ := hy.unpack_eq
  have digits := log2_of_bounds hx.lower hx.upper
  have digits' := log2_of_bounds hy.lower hy.upper
  have target : min (e - f) (double.targetExponent (totalExponent m e - totalExponent n f)) = e - f - 53 := by
    simp only [Format.targetExponent, totalExponent, digits, digits', Format.mantissaBits, Format.minExponent]
    norm_num
    omega
  have long : 2 ^ 52 ≤ m * 2 ^ 53 / n := by
    rw [Nat.le_div_iff_mul_le py]
    calc 2 ^ 52 * n ≤ 2 ^ 52 * 2 ^ 53 := Nat.mul_le_mul_left _ hy.upper.le
      _ ≤ m * 2 ^ 53 := Nat.mul_le_mul_right _ hx.lower
  have rounded : (x / y).toModel = Float.Model.pack (roundWithAccuracy double (s / s') (m * 2 ^ 53 / n)
      (e - f - 53) (accuracyOfFraction (m * 2 ^ 53 % n) n)) := by
    show Float.Model.pack (UnpackedFloat.div double x.toModel.unpack y.toModel.unpack) = _
    have amount : (e - f - (e - f - 53)).toNat = 53 := by omega
    rw [hx', hy']
    simp only [UnpackedFloat.div, divCore, target, amount, Nat.shiftLeft_eq]
  have value : ((m * 2 ^ 53 : ℕ) : ℚ) / n * 2 ^ (e - f - 53) = m * 2 ^ e / (n * 2 ^ f) := by
    rw [zpow_sub₀ (by norm_num), zpow_sub₀ (by norm_num)]
    push_cast
    field_simp
  obtain ⟨M, E, quotient, -, nearest⟩ :=
    isNormal_of_round (represents_quotient _ py) long (by omega) (value.trans_le bound) rounded
  exact ⟨M, E, quotient, value ▸ nearest⟩

end Binary

/-! ### Positive doubles -/

def Denotes (x : Float) (v : ℚ) : Prop := ∃ m e, IsNormal x .positive m e ∧ v = m * 2 ^ e

/-- Far from both ends of the exponent. -/
def Moderate (q : ℚ) : Prop := 2 ^ (-100 : ℤ) ≤ q ∧ q ≤ 2 ^ (100 : ℤ)

theorem Moderate.le_greatestValue {q : ℚ} (moderate : Moderate q) : q ≤ greatestValue := by
  calc q ≤ 1 * 2 ^ (100 : ℤ) := by
        rw [one_mul]
        exact moderate.2
    _ ≤ greatestValue := by
        unfold greatestValue
        gcongr <;> norm_num

theorem denotes_toFloat {n : ℕ} (pos : 0 < n) (fits : n < 2 ^ 64) :
    ∃ v, Denotes (UInt64.ofNat n).toFloat v ∧ Nearest n v := by
  obtain ⟨m, e, normal, -, nearest⟩ := isNormal_toFloat pos fits
  exact ⟨_, ⟨m, e, normal, rfl⟩, nearest⟩

namespace Denotes
variable {x y : Float} {v w : ℚ} (hx : Denotes x v) (hy : Denotes y w)
include hx hy

theorem mul (moderate : Moderate (v * w)) : ∃ z, Denotes (x * y) z ∧ Nearest (v * w) z := by
  obtain ⟨m, e, normal, rfl⟩ := hx
  obtain ⟨n, f, normal', rfl⟩ := hy
  have least : -1074 ≤ e + f := by
    by_contra less
    have small : (m : ℚ) * 2 ^ e * (n * 2 ^ f) < 2 ^ (-100 : ℤ) := by
      calc (m : ℚ) * 2 ^ e * (n * 2 ^ f) = m * n * 2 ^ (e + f) := by
            rw [zpow_add₀ (by norm_num)]
            ring
        _ ≤ 2 ^ 53 * 2 ^ 53 * 2 ^ (-250 : ℤ) := by
            gcongr
            · exact_mod_cast normal.upper.le
            · exact_mod_cast normal'.upper.le
            · norm_num
            · omega
        _ < 2 ^ (-100 : ℤ) := by norm_num
    exact absurd moderate.1 (not_le.2 small)
  obtain ⟨M, E, product, nearest⟩ := normal.mul normal' least moderate.le_greatestValue
  exact ⟨_, ⟨M, E, product, rfl⟩, nearest⟩

theorem div (moderate : Moderate (v / w)) : ∃ z, Denotes (x / y) z ∧ Nearest (v / w) z := by
  obtain ⟨m, e, normal, rfl⟩ := hx
  obtain ⟨n, f, normal', rfl⟩ := hy
  have least : -1021 ≤ e - f := by
    by_contra less
    have small : (m : ℚ) * 2 ^ e / (n * 2 ^ f) < 2 ^ (-100 : ℤ) := by
      calc (m : ℚ) * 2 ^ e / (n * 2 ^ f) = m / n * 2 ^ (e - f) := by
            rw [zpow_sub₀ (by norm_num)]
            field_simp
        _ ≤ 2 ^ 53 / 2 ^ 52 * 2 ^ (-250 : ℤ) := by
            gcongr
            · exact_mod_cast normal.upper.le
            · exact_mod_cast normal'.lower
            · norm_num
            · omega
        _ < 2 ^ (-100 : ℤ) := by norm_num
    exact absurd moderate.1 (not_le.2 small)
  obtain ⟨M, E, quotient, nearest⟩ := normal.div normal' least moderate.le_greatestValue
  exact ⟨_, ⟨M, E, quotient, rfl⟩, nearest⟩

end Denotes

end Prompt.Decimal
