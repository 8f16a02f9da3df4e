import Mathlib
import Prompt.Decimal.Shortest
import Prompt.Proofs.Decimal.Scaling

/-!
# The digits of a double

The shortest digits of a positive double are those of a whole number with at most 17 of them; scaled back
it is no greater than what rounds to the greatest double (`written_shortest`).
-/

namespace Prompt.Decimal

namespace Cell

theorem nearest?_eq_some {c : Cell} {n : Nat} (found : c.nearest? = some n) :
    c.contains n = true ∧ n ≤ c.value / c.den + 1 := by
  have rounded : roundQuotient c.value c.den = c.value / c.den ∨
      roundQuotient c.value c.den = c.value / c.den + 1 := by
    unfold roundQuotient
    dsimp only
    split
    · exact .inl rfl
    · split
      · exact .inr rfl
      · omega
  unfold nearest? at found
  dsimp only at found
  cases here : c.contains (c.value / c.den) <;> cases above : c.contains (c.value / c.den + 1) <;>
    simp only [here, above, Option.some.injEq, reduceCtorEq] at found
  · subst found
    exact ⟨above, le_rfl⟩
  · subst found
    exact ⟨here, by omega⟩
  · subst found
    rcases rounded with same | same <;> rw [same]
    · exact ⟨here, by omega⟩
    · exact ⟨above, le_rfl⟩

theorem bounds_of_contains {c : Cell} {n : Nat} (inside : c.contains n = true) :
    c.low ≤ n * c.den ∧ n * c.den ≤ c.high := by
  unfold contains at inside
  split at inside <;> simp only [Bool.and_eq_true, decide_eq_true_eq] at inside <;> omega

theorem lt_of_toDigits {n den : Nat} (filled : 0 < den) :
    n < den * 10 ^ (Nat.toDigits 10 (n / den)).length := by
  have digits := (Nat.length_toDigits_le_iff (b := 10) (n := n / den) (by norm_num)
    Nat.length_toDigits_pos).1 le_rfl
  rw [Nat.mul_comm den]
  exact (Nat.div_lt_iff_lt_mul filled).1 digits

theorem value_lt (c : Cell) (filled : 0 < c.den) : ∃ len : Nat, c.leading = len - (places + 1) ∧
    c.value * 10 ^ places < c.den * 10 ^ len := by
  refine ⟨_, ?_, lt_of_toDigits filled⟩
  rw [leading, Nat.pow_eq]

theorem le_leading_sub {c : Cell} (filled : 0 < c.den) {i : Nat} (small : i < 17) :
    -417 ≤ c.leading - i := by
  obtain ⟨len, leading, -⟩ := c.value_lt filled
  rw [leading, places]
  omega

theorem inUnits_value (c : Cell) (e : Int) : (c.inUnits e).value = c.value * 10 ^ (-e).toNat := rfl

theorem inUnits_low (c : Cell) (e : Int) : (c.inUnits e).low = c.low * 10 ^ (-e).toNat := rfl

theorem inUnits_den (c : Cell) (e : Int) : (c.inUnits e).den = c.den * 10 ^ e.toNat := rfl

/-- On the grid of `i + 1` digits the value has no more than that. -/
theorem value_inUnits_lt (c : Cell) (filled : 0 < c.den) (i : Nat) :
    (c.inUnits (c.leading - i)).value / (c.inUnits (c.leading - i)).den < 10 ^ (i + 1) := by
  obtain ⟨len, leading, below⟩ := c.value_lt filled
  obtain ⟨up, ups⟩ : ∃ up, (-(c.leading - (i : Int))).toNat = up := ⟨_, rfl⟩
  obtain ⟨down, downs⟩ : ∃ down, (c.leading - (i : Int)).toNat = down := ⟨_, rfl⟩
  have shift : len + up = down + (i + 1) + places := by omega
  rw [inUnits_value, inUnits_den, ups, downs, Nat.div_lt_iff_lt_mul (by positivity)]
  have scaled : c.value * 10 ^ up * 10 ^ places < 10 ^ (i + 1) * (c.den * 10 ^ down) * 10 ^ places := by
    calc c.value * 10 ^ up * 10 ^ places = c.value * 10 ^ places * 10 ^ up := by ac_rfl
      _ < c.den * 10 ^ len * 10 ^ up := Nat.mul_lt_mul_of_pos_right below (by positivity)
      _ = c.den * 10 ^ (down + (i + 1) + places) := by rw [Nat.mul_assoc, ← pow_add, shift]
      _ = 10 ^ (i + 1) * (c.den * 10 ^ down) * 10 ^ places := by
          rw [pow_add, pow_add]
          ac_rfl
  exact Nat.lt_of_mul_lt_mul_right scaled

end Cell

theorem findSome?_range {α : Type} {n : Nat} {f : Nat → Option α} {a : α}
    (found : (List.range n).findSome? f = some a) : ∃ i < n, f i = some a := by
  obtain ⟨i, listed, here⟩ := List.exists_of_findSome?_eq_some found
  exact ⟨i, List.mem_range.1 listed, here⟩

/-- Shortest digits are those of a number near the double, on a grid of at most 17 digits. -/
theorem shortest_eq (m : Nat) (q : Int) (pos : 0 < m) : shortest m q = ⟨[], 0⟩ ∨
    ∃ d e, shortest m q = Digits.ofScaled d e ∧ 0 < d ∧ d ≤ 10 ^ 17 ∧ -417 ≤ e ∧
      d * ((Cell.ofBinary m q).den * 10 ^ e.toNat) ≤ (Cell.ofBinary m q).high * 10 ^ (-e).toNat := by
  have den : 0 < (Cell.ofBinary m q).den := Nat.pow_pos (by norm_num)
  have low : 0 < (Cell.ofBinary m q).low := by
    refine Nat.mul_pos ?_ (Nat.pow_pos (by norm_num))
    split <;> omega
  unfold shortest
  dsimp only
  cases tried : (List.range 17).findSome? _ with
  | none => exact .inl rfl
  | some digits =>
      right
      obtain ⟨i, small, found⟩ := findSome?_range tried
      obtain ⟨d, near, rfl⟩ := Option.map_eq_some_iff.1 found
      obtain ⟨inside, next⟩ := Cell.nearest?_eq_some near
      obtain ⟨least, most⟩ := Cell.bounds_of_contains inside
      have short := (Cell.ofBinary m q).value_inUnits_lt den i
      refine ⟨d, (Cell.ofBinary m q).leading - i, rfl, ?_, ?_, Cell.le_leading_sub den small, most⟩
      · refine Nat.pos_of_ne_zero fun zero => ?_
        rw [zero, Nat.zero_mul, Nat.le_zero, Cell.inUnits_low] at least
        exact absurd least (Nat.mul_pos low (by positivity)).ne'
      · calc d ≤ 10 ^ (i + 1) := next.trans short
          _ ≤ 10 ^ 17 := Nat.pow_le_pow_right (by norm_num) (by omega)

/-! ### Written digits -/

theorem head_toDigits {n : Nat} (pos : 0 < n) : ∃ c rest, Nat.toDigits 10 n = c :: rest ∧ c ≠ '0' := by
  induction n using Nat.strongRecOn with
  | _ n ih =>
      by_cases single : n < 10
      · refine ⟨n.digitChar, [], Nat.toDigits_of_lt_base single, ?_⟩
        interval_cases n <;> decide
      · obtain ⟨c, rest, leading, apart⟩ := ih (n / 10) (by omega) (by omega)
        exact ⟨c, rest ++ [(n % 10).digitChar],
          by rw [Nat.toDigits_of_base_le (by norm_num) (by omega), leading, List.cons_append], apart⟩

/-- Digits without a zero in front, of a number that can be scaled by the power that belongs to it. -/
structure Written (d : Digits) : Prop where
  isDigit : ∀ c ∈ d.digits, c.isDigit = true
  leading : ∃ c rest, d.digits = c :: rest ∧ c ≠ '0'
  pos : 0 < Nat.ofDigitChars 10 d.digits 0
  small : Nat.ofDigitChars 10 d.digits 0 ≤ 10 ^ 17
  near : -417 ≤ d.point ∧ d.point ≤ 326
  bound : ∀ e : Nat, d.point = d.digits.length + e →
    Nat.ofDigitChars 10 d.digits 0 * 10 ^ e ≤ 17976931348623157 * 10 ^ 292

theorem exists_zeros (digits : List Char) : ∃ z,
    digits = (digits.reverse.dropWhile (· == '0')).reverse ++ List.replicate z '0' := by
  refine ⟨(digits.reverse.takeWhile (· == '0')).length, ?_⟩
  have zeros : digits.reverse.takeWhile (· == '0') =
      List.replicate (digits.reverse.takeWhile (· == '0')).length '0' :=
    List.eq_replicate_iff.2 ⟨rfl, fun c listed => by simpa using List.mem_takeWhile_imp listed⟩
  have parts := congrArg List.reverse (List.takeWhile_append_dropWhile (p := (· == '0')) (l := digits.reverse))
  rw [List.reverse_append, List.reverse_reverse, zeros, List.reverse_replicate] at parts
  exact parts.symm

/-- The digits of a scaled number without the zeros at their end, which the point makes up for. -/
theorem exists_ofScaled_eq (n : Nat) (e : Int) : ∃ (kept : List Char) (z : Nat),
    Digits.ofScaled n e = ⟨kept, kept.length + z + e⟩ ∧
      Nat.toDigits 10 n = kept ++ List.replicate z '0' ∧ Nat.ofDigitChars 10 kept 0 * 10 ^ z = n := by
  obtain ⟨z, parts⟩ := exists_zeros (Nat.toDigits 10 n)
  obtain ⟨kept, same⟩ : ∃ kept, ((Nat.toDigits 10 n).reverse.dropWhile (· == '0')).reverse = kept := ⟨_, rfl⟩
  rw [same] at parts
  refine ⟨kept, z, ?_, parts, ?_⟩
  · show (⟨((Nat.toDigits 10 n).reverse.dropWhile (· == '0')).reverse, (Nat.toDigits 10 n).length + e⟩ :
      Digits) = _
    rw [same, parts, List.length_append, List.length_replicate, Nat.cast_add]
  · have whole := Nat.ofDigitChars_ten_toDigits (n := n)
    rw [parts, Nat.ofDigitChars_append, Nat.ofDigitChars_replicate_zero] at whole
    rw [Nat.mul_comm, whole]

/-- What lies in a cell below the greatest double is below it as a decimal too. -/
theorem mul_pow_le_greatest {v n z k high den : Nat} {e : Int}
    (bound : n * (den * 10 ^ e.toNat) ≤ high * 10 ^ (-e).toNat) (filled : 0 < den)
    (most : high ≤ den * (17976931348623157 * 10 ^ 292)) (value : v * 10 ^ z = n) (place : (k : Int) = z + e) :
    v * 10 ^ k ≤ 17976931348623157 * 10 ^ 292 := by
  have scaled : v * 10 ^ k * den ≤ high := by
    rcases Int.le_total 0 e with up | down
    · obtain ⟨f, rfl⟩ := Int.eq_ofNat_of_zero_le up
      obtain rfl : k = z + f := by omega
      calc v * 10 ^ (z + f) * den = n * (den * 10 ^ f) := by
            rw [pow_add, ← mul_assoc, value]
            ac_rfl
        _ ≤ high := by simpa using bound
    · obtain ⟨f, rfl⟩ : ∃ f : Nat, e = -f := ⟨(-e).toNat, by omega⟩
      obtain rfl : z = k + f := by omega
      refine Nat.le_of_mul_le_mul_right (c := 10 ^ f) ?_ (by positivity)
      calc v * 10 ^ k * den * 10 ^ f = n * den := by
            rw [← value, pow_add]
            ac_rfl
        _ ≤ high * 10 ^ f := by simpa using bound
  refine Nat.le_of_mul_le_mul_left (c := den) ?_ filled
  rw [Nat.mul_comm den]
  exact scaled.trans most

theorem written_ofScaled {n : Nat} {e : Int} (pos : 0 < n) (small : n ≤ 10 ^ 17) (least : -417 ≤ e)
    {high den : Nat} (bound : n * (den * 10 ^ e.toNat) ≤ high * 10 ^ (-e).toNat) (filled : 0 < den)
    (most : high ≤ den * (17976931348623157 * 10 ^ 292)) : Written (Digits.ofScaled n e) := by
  obtain ⟨kept, z, same, parts, value⟩ := exists_ofScaled_eq n e
  have kept_pos : 0 < Nat.ofDigitChars 10 kept 0 := Nat.pos_of_mul_pos_right (value ▸ pos)
  have kept_small : Nat.ofDigitChars 10 kept 0 ≤ n := value ▸ Nat.le_mul_of_pos_right _ (by positivity)
  have length : kept.length + z ≤ 18 := by
    have digits : (Nat.toDigits 10 n).length ≤ 18 :=
      (Nat.length_toDigits_le_iff (by norm_num) (by norm_num)).2 (small.trans_lt (by norm_num))
    rwa [parts, List.length_append, List.length_replicate] at digits
  have above : e ≤ 308 := by
    by_contra far
    obtain ⟨f, rfl⟩ : ∃ f : Nat, e = f := ⟨e.toNat, by omega⟩
    have small' : f ≤ 308 := le_greatestPower pos
      (mul_pow_le_greatest (z := 0) bound filled most (by rw [pow_zero, mul_one]) (by simp))
    omega
  rw [same]
  constructor
  · exact fun c listed => Nat.isDigit_of_mem_toDigits (by norm_num) (by norm_num)
      (parts ▸ List.mem_append_left _ listed)
  · obtain ⟨c, rest, leading, apart⟩ := head_toDigits pos
    cases kept with
    | nil => exact absurd kept_pos (by simp)
    | cons c' rest' =>
        rw [parts, List.cons_append] at leading
        exact ⟨c', rest', rfl, (List.cons.inj leading).1 ▸ apart⟩
  · exact kept_pos
  · exact kept_small.trans small
  · dsimp only
    omega
  · intro k place
    dsimp only at place ⊢
    exact mul_pow_le_greatest bound filled most value (by omega)

theorem high_le {m : Nat} {q : Int} (short : m < 2 ^ 53) (most : q ≤ 971)
    (less : ¬ (m = 2 ^ 53 - 1 ∧ q = 971)) : (Cell.ofBinary m q).high ≤
      (Cell.ofBinary m q).den * (17976931348623157 * 10 ^ 292) := by
  show (4 * m + 2) * 2 ^ (q - 2).toNat ≤ 2 ^ (2 - q).toNat * (17976931348623157 * 10 ^ 292)
  by_cases small : q ≤ 2
  · obtain ⟨k, rfl⟩ : ∃ k : Nat, q = 2 - k := ⟨(2 - q).toNat, by omega⟩
    have exponent : ((2 : Int) - k - 2).toNat = 0 := by omega
    rw [exponent, pow_zero, mul_one]
    exact Nat.le_mul_of_pos_left _ (by positivity) |>.trans' ((by omega : 4 * m + 2 ≤ 2 ^ 55).trans (by decide +kernel))
  · have exponent : (2 - q).toNat = 0 := by omega
    rw [exponent, pow_zero, one_mul]
    by_cases last : q = 971
    · subst last
      have even : 4 * m + 2 ≤ 2 ^ 55 - 6 := by omega
      exact (Nat.mul_le_mul_right _ even).trans (by decide +kernel)
    · calc (4 * m + 2) * 2 ^ (q - 2).toNat ≤ 2 ^ 55 * 2 ^ 968 :=
            Nat.mul_le_mul (by omega) (Nat.pow_le_pow_right (by norm_num) (by omega))
        _ ≤ 17976931348623157 * 10 ^ 292 := by decide +kernel

/-- The greatest double is the only one that rounds from more than `17976931348623157` times `10 ^ 292`. -/
theorem written_shortest {m : Nat} {q : Int} (pos : 0 < m) (short : m < 2 ^ 53) (most : q ≤ 971) :
    shortest m q = ⟨[], 0⟩ ∨ Written (shortest m q) := by
  by_cases greatest : m = 2 ^ 53 - 1 ∧ q = 971
  · obtain ⟨rfl, rfl⟩ := greatest
    have digits : shortest (2 ^ 53 - 1) 971 = ⟨Nat.toDigits 10 17976931348623157, 309⟩ := by decide +kernel
    have value : Nat.ofDigitChars 10 (Nat.toDigits 10 17976931348623157) 0 = 17976931348623157 :=
      Nat.ofDigitChars_ten_toDigits
    have length : (Nat.toDigits 10 17976931348623157).length = 17 := by decide +kernel
    have isDigit : ∀ c ∈ Nat.toDigits 10 17976931348623157, c.isDigit = true := fun _ listed =>
      Nat.isDigit_of_mem_toDigits (by norm_num) (by norm_num) listed
    have leading := head_toDigits (show 0 < 17976931348623157 by norm_num)
    right
    rw [digits]
    refine ⟨isDigit, leading, ?_, ?_, by decide, fun e place => ?_⟩
    · rw [value]
      norm_num
    · rw [value]
      norm_num
    · rw [value]
      dsimp only at place
      rw [length] at place
      obtain rfl : e = 292 := by omega
      exact Nat.mul_le_mul_right _ le_rfl
  · refine (shortest_eq m q pos).imp_right ?_
    rintro ⟨d, e, same, filled, small, least, bound⟩
    rw [same]
    refine written_ofScaled filled small least bound (Nat.pow_pos (by norm_num)) ?_
    exact high_le short most greatest

/-! ### Finite doubles -/

open Float.Model Float.Model.UnpackedFloat in
theorem field_of_isFinite {x : Float} (finite : x.isFinite = true) :
    x.toBits.toNat / 2 ^ 52 % 2 ^ 11 ≠ 2047 := by
  intro ones
  have special : @unpackExponent Format.binary64 x.toBits.toBitVec = -1#11 := by
    refine BitVec.eq_of_toNat_eq ?_
    have value : (@unpackExponent Format.binary64 x.toBits.toBitVec).toNat =
        x.toBits.toNat / 2 ^ 52 % 2 ^ 11 := by
      simp [unpackExponent, Nat.shiftRight_eq_div_pow]
    rw [value, ones]
    rfl
  have unpacked : (UnpackedFloat.unpack Format.binary64 x.toBits.toBitVec).isFinite = true := finite
  rw [UnpackedFloat.unpack, special] at unpacked
  revert unpacked
  simp only [if_true]
  split <;> simp [UnpackedFloat.isFinite]

theorem bounds_ofFloat {x : Float} (finite : x.isFinite = true) :
    (Binary.ofFloat x).significand < 2 ^ 53 ∧ (Binary.ofFloat x).exponent ≤ 971 := by
  have field := field_of_isFinite finite
  unfold Binary.ofFloat
  simp only [Nat.pow_eq] at field ⊢
  have fraction : x.toBits.toNat % 2 ^ 52 < 2 ^ 52 := Nat.mod_lt _ (by positivity)
  have most : x.toBits.toNat / 2 ^ 52 % 2 ^ 11 < 2 ^ 11 := Nat.mod_lt _ (by positivity)
  split <;> dsimp only <;> constructor <;> omega

end Prompt.Decimal
