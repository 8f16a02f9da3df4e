import Mathlib.Data.List.TakeWhile
import Prompt.Json.Reader
import Prompt.Json.Writer
import Prompt.Proofs.Decimal.Digits

/-!
# Numbers as text

Where the text of a value ends, a comma, a closing bracket or nothing follows (`Ends`). There the reader
gives back a whole number of 64 bits (`numeral_int`), and of a finite double it gives some double, which
need not be the same one (`numeral_double`).
-/

namespace Prompt.Json
open Decimal

def Ends (rest : List Char) : Prop := ∀ c s, rest = c :: s → c = ',' ∨ c = ']' ∨ c = '\x7d'

/-- No digit follows. -/
def Apart (rest : List Char) : Prop := ∀ c s, rest = c :: s → c.isDigit = false

theorem Ends.apart {rest : List Char} (ends : Ends rest) : Apart rest := by
  rintro c s rfl
  rcases ends c s rfl with rfl | rfl | rfl <;> rfl

theorem apart_cons {c : Char} {s : List Char} (other : c.isDigit = false) : Apart (c :: s) := by
  rintro _ _ ⟨⟩
  exact other

def Digital (digits : List Char) : Prop := ∀ c ∈ digits, c.isDigit = true

theorem digital_toDigits (n : Nat) : Digital (Nat.toDigits 10 n) := fun _ listed =>
  Nat.isDigit_of_mem_toDigits (by decide) (by decide) listed

theorem takeWhile_digits {digits rest : List Char} (digital : Digital digits) (apart : Apart rest) :
    (digits ++ rest).takeWhile Char.isDigit = digits := by
  rw [List.takeWhile_append_of_pos digital]
  cases rest with
  | nil => simp
  | cons c s => simp [apart c s rfl]

theorem dropWhile_digits {digits rest : List Char} (digital : Digital digits) (apart : Apart rest) :
    (digits ++ rest).dropWhile Char.isDigit = rest := by
  rw [List.dropWhile_append_of_pos digital]
  cases rest with
  | nil => rfl
  | cons c s => simp [apart c s rfl]

theorem toNat_sub_zero_le {c : Char} (digit : c.isDigit = true) : c.toNat - '0'.toNat ≤ 9 := by
  simp only [Char.isDigit, Bool.and_eq_true, decide_eq_true_eq] at digit
  have most : c.toNat ≤ 57 := digit.2
  have zero : '0'.toNat = 48 := rfl
  omega

/-! ### Taking digits -/

theorem le_ofDigitChars (digits : List Char) (n : Nat) : n ≤ Nat.ofDigitChars 10 digits n := by
  rw [Nat.ofDigitChars_eq_ofDigitChars_zero]
  exact (Nat.le_mul_of_pos_left n (Nat.pow_pos (by decide))).trans (Nat.le_add_right _ _)

theorem absorb_eq {limit n : Nat} {digits : List Char} (less : Nat.ofDigitChars 10 digits n < limit) :
    absorb limit n digits = (Nat.ofDigitChars 10 digits n, []) := by
  induction digits generalizing n with
  | nil => rw [absorb, Nat.ofDigitChars_nil]
  | cons c rest ih =>
      rw [Nat.ofDigitChars_cons] at less ⊢
      rw [absorb, if_pos ((le_ofDigitChars _ _).trans_lt less), ih less]

theorem length_absorb_le (limit n : Nat) (digits : List Char) :
    (absorb limit n digits).2.length ≤ digits.length := by
  induction digits generalizing n with
  | nil => exact le_rfl
  | cons c rest ih =>
      rw [absorb]
      split
      · exact (ih _).trans (Nat.le_succ _)
      · exact le_rfl

theorem length_absorb_lt {limit n : Nat} {c : Char} {rest : List Char}
    (less : 10 * n + (c.toNat - '0'.toNat) < limit) :
    (absorb limit n (c :: rest)).2.length < (c :: rest).length := by
  rw [absorb, if_pos less]
  exact Nat.lt_succ_of_le (length_absorb_le _ _ _)

/-- The whole part of a number: a zero or digits of which the first is no zero. -/
structure Whole (digits : List Char) : Prop where
  digital : Digital digits
  leading : digits = ['0'] ∨ ∃ c rest, digits = c :: rest ∧ c ≠ '0'

theorem whole_toDigits (n : Nat) : Whole (Nat.toDigits 10 n) := by
  refine ⟨digital_toDigits n, ?_⟩
  rcases Nat.eq_zero_or_pos n with rfl | pos
  · exact .inl rfl
  · exact .inr (head_toDigits pos)

/-- What is read after the whole part of a number. -/
def readAfterWhole (negative : Bool) (whole rest : List Char) : Except Failure (Number × List Char) :=
  let (n, excess) := absorb digitLimit 0 whole
  match rest with
  | '.' :: rest =>
    let fraction := rest.takeWhile Char.isDigit
    let after := rest.dropWhile Char.isDigit
    if fraction.isEmpty then
      if rest.isEmpty then failBefore .endInValue [] else failAt .invalidNumber rest
    else
      let (n, unused) := absorb digitLimit n fraction
      let e : Int := (excess.length : Int) + unused.length - fraction.length
      match after with
      | 'e' :: rest => readExponent negative n e rest
      | 'E' :: rest => readExponent negative n e rest
      | _ => ofScaled negative n e after
  | 'e' :: rest => readExponent negative n excess.length rest
  | 'E' :: rest => readExponent negative n excess.length rest
  | _ =>
    if excess.isEmpty then
      if negative = false then .ok (.int n, rest)
      else if n = 0 ∨ Nat.pow 2 63 < n then .ok (.double (-Number.magnitude n), rest)
      else .ok (.int (-n), rest)
    else ofScaled negative n excess.length rest

theorem readNumber_append {whole rest : List Char} (negative : Bool) (form : Whole whole)
    (apart : Apart rest) : readNumber negative (whole ++ rest) = readAfterWhole negative whole rest := by
  unfold readNumber
  dsimp only
  rw [takeWhile_digits form.digital apart, dropWhile_digits form.digital apart]
  rcases form.leading with rfl | ⟨c, more, rfl, nonzero⟩
  · rfl
  · split
    · next empty => cases empty
    · next two => exact absurd (List.cons.inj two).1 nonzero
    · rfl

theorem Ends.cases {rest : List Char} (ends : Ends rest) :
    rest = [] ∨ ∃ s, rest = ',' :: s ∨ rest = ']' :: s ∨ rest = '\x7d' :: s := by
  cases rest with
  | nil => exact .inl rfl
  | cons c s => rcases ends c s rfl with rfl | rfl | rfl <;> simp

theorem readNumber_toDigits {n : Nat} {rest : List Char} (negative : Bool) (fits : n < digitLimit)
    (ends : Ends rest) : readNumber negative (Nat.toDigits 10 n ++ rest) =
      if negative = false then .ok (.int n, rest)
      else if n = 0 ∨ Nat.pow 2 63 < n then .ok (.double (-Number.magnitude n), rest)
      else .ok (.int (-n), rest) := by
  have digits : absorb digitLimit 0 (Nat.toDigits 10 n) = (n, []) := by
    rw [absorb_eq (by rwa [Nat.ofDigitChars_ten_toDigits]), Nat.ofDigitChars_ten_toDigits]
  rw [readNumber_append negative (whole_toDigits n) ends.apart, readAfterWhole, digits]
  rcases ends.cases with rfl | ⟨s, rfl | rfl | rfl⟩ <;> rfl

/-! ### Doubles -/

theorem exists_ofScaled {n : Nat} {e : Int} (negative : Bool) (scales : (Decimal.ofScaled? n e).isSome) :
    ∃ y, ∀ rest, ofScaled negative n e rest = .ok (.double y, rest) := by
  obtain ⟨x, found⟩ := Option.isSome_iff_exists.1 scales
  refine ⟨signed negative x, fun rest => ?_⟩
  rw [ofScaled, found]

/-- What is read after the fraction of a number. -/
def readAfterFraction (negative : Bool) (n : Nat) (e : Int) (rest : List Char) :
    Except Failure (Number × List Char) :=
  match rest with
  | 'e' :: rest => readExponent negative n e rest
  | 'E' :: rest => readExponent negative n e rest
  | _ => ofScaled negative n e rest

theorem readAfterWhole_fraction {whole fraction rest unused : List Char} {m n : Nat} (negative : Bool)
    (digital : Digital fraction) (filled : fraction ≠ []) (apart : Apart rest)
    (taken : absorb digitLimit 0 whole = (m, []))
    (absorbed : absorb digitLimit m fraction = (n, unused)) :
    readAfterWhole negative whole ('.' :: (fraction ++ rest)) =
      readAfterFraction negative n ((unused.length : Int) - fraction.length) rest := by
  have some : fraction.isEmpty = false := by simpa using filled
  rw [readAfterWhole, taken]
  show (if ((fraction ++ rest).takeWhile Char.isDigit).isEmpty then _ else readAfterFraction negative
    (absorb digitLimit m ((fraction ++ rest).takeWhile Char.isDigit)).1
    (((0 : Nat) : Int) + (absorb digitLimit m ((fraction ++ rest).takeWhile Char.isDigit)).2.length -
      ((fraction ++ rest).takeWhile Char.isDigit).length)
    ((fraction ++ rest).dropWhile Char.isDigit)) = _
  rw [takeWhile_digits digital apart, dropWhile_digits digital apart, absorbed, some]
  simp

theorem readAfterFraction_of_ends {n : Nat} {e : Int} {rest : List Char} (negative : Bool)
    (ends : Ends rest) : readAfterFraction negative n e rest = ofScaled negative n e rest := by
  rcases ends.cases with rfl | ⟨s, rfl | rfl | rfl⟩ <;> rfl

/-- With a digit behind the point, and without an exponent, the power of ten is negative. -/
theorem exists_readNumber_fraction {whole : List Char} {c : Char} {fraction : List Char} (negative : Bool)
    (form : Whole whole) (digital : Digital (c :: fraction))
    (short : Nat.ofDigitChars 10 whole 0 < 10 ^ 16) : ∃ y, ∀ rest, Ends rest →
      readNumber negative (whole ++ '.' :: (c :: fraction ++ rest)) = .ok (.double y, rest) := by
  have small : 10 * Nat.ofDigitChars 10 whole 0 + (c.toNat - '0'.toNat) < digitLimit := by
    have digit := toNat_sub_zero_le (digital c List.mem_cons_self)
    have limit : digitLimit = 18446744073709551616 := by decide
    omega
  have used := @length_absorb_lt _ _ _ fraction small
  obtain ⟨n, unused, absorbed⟩ : ∃ n unused,
    absorb digitLimit (Nat.ofDigitChars 10 whole 0) (c :: fraction) = (n, unused) := ⟨_, _, rfl⟩
  rw [absorbed] at used
  dsimp only at used
  have down : (unused.length : Int) - (c :: fraction).length < 0 := by omega
  obtain ⟨y, scaled⟩ := exists_ofScaled negative (isSome_ofScaled?_of_neg n down)
  refine ⟨y, fun rest ends => ?_⟩
  have taken : absorb digitLimit 0 whole = (Nat.ofDigitChars 10 whole 0, []) :=
    absorb_eq (short.trans (by decide))
  rw [readNumber_append negative form (apart_cons rfl), readAfterWhole_fraction negative digital
    (List.cons_ne_nil _ _) ends.apart taken absorbed, readAfterFraction_of_ends negative ends, scaled]

theorem readExponent_toDigits {n : Nat} {shift e : Int} {rest : List Char} (negative : Bool)
    (near : e.natAbs < exponentLimit) (ends : Ends rest) :
    readExponent negative n shift ((if 0 ≤ e then '+' else '-') :: (Nat.toDigits 10 e.natAbs ++ rest)) =
      ofScaled negative n (e + shift) rest := by
  have digits : absorb exponentLimit 0 (Nat.toDigits 10 e.natAbs) = (e.natAbs, []) := by
    rw [absorb_eq (by rwa [Nat.ofDigitChars_ten_toDigits]), Nat.ofDigitChars_ten_toDigits]
  by_cases up : 0 ≤ e
  · simp [readExponent, if_pos up, takeWhile_digits (digital_toDigits e.natAbs) ends.apart,
      dropWhile_digits (digital_toDigits e.natAbs) ends.apart, digits, abs_of_nonneg up, add_comm]
  · simp [readExponent, if_neg up, takeWhile_digits (digital_toDigits e.natAbs) ends.apart,
      dropWhile_digits (digital_toDigits e.natAbs) ends.apart, digits, abs_of_neg (not_le.1 up), add_comm]

/-- One digit, the others behind the point, and an exponent. -/
theorem exists_readNumber_exponent {c : Char} {fraction : List Char} {e : Int} (negative : Bool)
    (digital : Digital (c :: fraction)) (short : Nat.ofDigitChars 10 (c :: fraction) 0 ≤ 10 ^ 17)
    (near : e.natAbs < exponentLimit)
    (scales : (Decimal.ofScaled? (Nat.ofDigitChars 10 (c :: fraction) 0) (e - fraction.length)).isSome) :
    ∃ y, ∀ rest, Ends rest → readNumber negative ([c] ++ ((if fraction = [] then [] else '.' :: fraction) ++
      'e' :: (if 0 ≤ e then '+' else '-') :: (Nat.toDigits 10 e.natAbs ++ rest))) = .ok (.double y, rest) := by
  obtain ⟨y, scaled⟩ := exists_ofScaled negative scales
  have form : Whole [c] := by
    refine ⟨fun d listed => List.mem_singleton.1 listed ▸ digital c List.mem_cons_self, ?_⟩
    by_cases zero : c = '0'
    · exact .inl (by rw [zero])
    · exact .inr ⟨c, [], rfl, zero⟩
  have exponent (rest : List Char) (ends : Ends rest) : readExponent negative
      (Nat.ofDigitChars 10 (c :: fraction) 0) (-(fraction.length : Int))
      ((if 0 ≤ e then '+' else '-') :: (Nat.toDigits 10 e.natAbs ++ rest)) = .ok (.double y, rest) := by
    rw [readExponent_toDigits negative near ends, ← sub_eq_add_neg, scaled]
  have least : (10 : Nat) ^ 17 < digitLimit := by decide
  refine ⟨y, fun rest ends => ?_⟩
  cases fraction with
  | nil =>
      have taken := absorb_eq (short.trans_lt least)
      rw [if_pos rfl, List.nil_append, readNumber_append negative form (apart_cons rfl), readAfterWhole,
        taken]
      exact exponent rest ends
  | cons d more =>
      have rest_digital : Digital (d :: more) := fun x listed => digital x (List.mem_cons_of_mem _ listed)
      have split : Nat.ofDigitChars 10 (d :: more) (Nat.ofDigitChars 10 [c] 0) =
          Nat.ofDigitChars 10 (c :: d :: more) 0 := (Nat.ofDigitChars_append 0).symm
      have taken := absorb_eq ((split ▸ le_ofDigitChars _ _).trans_lt (short.trans_lt least))
      have absorbed : absorb digitLimit (Nat.ofDigitChars 10 [c] 0) (d :: more) =
          (Nat.ofDigitChars 10 (c :: d :: more) 0, []) := by
        rw [absorb_eq (by rw [split]; exact short.trans_lt least), split]
      show readNumber negative ([c] ++ '.' :: (d :: more ++ 'e' :: _)) = _
      rw [readNumber_append negative form (apart_cons rfl), readAfterWhole_fraction negative rest_digital
        (List.cons_ne_nil _ _) (apart_cons rfl) taken absorbed]
      have shift : (([] : List Char).length : Int) - (d :: more).length = -((d :: more).length : Int) := by
        simp
      rw [shift]
      exact exponent rest ends

theorem ofDigitChars_lt {digits : List Char} (digital : Digital digits) (n : Nat) :
    Nat.ofDigitChars 10 digits n < (n + 1) * 10 ^ digits.length := by
  induction digits generalizing n with
  | nil => simp
  | cons c rest ih =>
      have digit := toNat_sub_zero_le (digital c List.mem_cons_self)
      rw [Nat.ofDigitChars_cons, List.length_cons, pow_succ']
      calc _ < (10 * n + (c.toNat - '0'.toNat) + 1) * 10 ^ rest.length :=
            ih (fun d listed => digital d (List.mem_cons_of_mem _ listed)) _
        _ ≤ (n + 1) * 10 * 10 ^ rest.length := Nat.mul_le_mul_right _ (by omega)
        _ = (n + 1) * (10 * 10 ^ rest.length) := Nat.mul_assoc _ _ _

theorem digital_replicate (n : Nat) : Digital (List.replicate n '0') := fun _ listed =>
  (List.eq_of_mem_replicate listed) ▸ rfl

theorem whole_take {digits : List Char} (p : Nat) (digital : Digital digits)
    (leading : ∀ c rest, digits = c :: rest → c ≠ '0') {whole : List Char}
    (same : whole = if (digits.take p).isEmpty then ['0']
      else digits.take p ++ List.replicate (p - (digits.take p).length) '0') :
    Whole whole ∧ whole.length ≤ max 1 p := by
  cases kept : digits.take p with
  | nil =>
      rw [kept, List.isEmpty_nil, if_pos rfl] at same
      subst same
      exact ⟨⟨digital_replicate 1, .inl rfl⟩, le_max_left _ _⟩
  | cons c rest =>
      have short : (c :: rest).length ≤ p := kept ▸ List.length_take_le _ _
      have taken : Digital (c :: rest) := fun x listed => digital x (List.mem_of_mem_take (kept ▸ listed))
      have nonzero : c ≠ '0' := by
        cases digits with
        | nil => simp at kept
        | cons d more =>
            cases p with
            | zero => cases kept
            | succ p => exact (List.cons.inj kept).1 ▸ leading d more rfl
      rw [kept, List.isEmpty_cons, if_neg Bool.false_ne_true] at same
      subst same
      refine ⟨⟨?_, .inr ⟨c, _, rfl, nonzero⟩⟩, ?_⟩
      · intro x listed
        rcases List.mem_append.1 listed with front | zero
        · exact taken x front
        · exact digital_replicate _ x zero
      · rw [List.length_append, List.length_replicate]
        omega

theorem digital_behind {digits : List Char} (digital : Digital digits) (zeros : Nat) :
    Digital (if digits.isEmpty then ['0'] else List.replicate zeros '0' ++ digits) ∧
      (if digits.isEmpty then ['0'] else List.replicate zeros '0' ++ digits) ≠ [] := by
  split
  · exact ⟨digital_replicate 1, List.cons_ne_nil _ _⟩
  · next filled =>
      refine ⟨fun c listed => ?_, fun empty =>
        filled (List.isEmpty_iff.2 (List.append_eq_nil_iff.1 empty).2)⟩
      rcases List.mem_append.1 listed with zero | written
      · exact digital_replicate _ c zero
      · exact digital c written

theorem exists_readNumber_positional {d : Digits} (negative : Bool) (digital : Digital d.digits)
    (leading : ∀ c rest, d.digits = c :: rest → c ≠ '0')
    (positional : Number.layout.leastPoint ≤ d.point ∧ d.point ≤ Number.layout.greatestPoint) :
    ∃ y, ∀ rest, Ends rest →
      readNumber negative (Number.layout.write d ++ rest) = .ok (.double y, rest) := by
  have most : d.point ≤ 16 := positional.2
  obtain ⟨whole, wholes⟩ : ∃ whole, whole = if (d.digits.take d.point.toNat).isEmpty then ['0']
    else d.digits.take d.point.toNat ++
      List.replicate (d.point.toNat - (d.digits.take d.point.toNat).length) '0' := ⟨_, rfl⟩
  obtain ⟨fraction, fractions⟩ : ∃ fraction, fraction =
    if (d.digits.drop d.point.toNat).isEmpty then ['0']
    else List.replicate (-d.point).toNat '0' ++ d.digits.drop d.point.toNat := ⟨_, rfl⟩
  have text : Number.layout.write d = whole ++ '.' :: fraction := by
    rw [Layout.write, if_pos positional, wholes, fractions]
  obtain ⟨form, length⟩ := whole_take _ digital leading wholes
  have short : Nat.ofDigitChars 10 whole 0 < 10 ^ 16 := by
    calc Nat.ofDigitChars 10 whole 0 < (0 + 1) * 10 ^ whole.length := ofDigitChars_lt form.digital 0
      _ = 10 ^ whole.length := by rw [Nat.zero_add, Nat.one_mul]
      _ ≤ 10 ^ 16 := Nat.pow_le_pow_right (by decide) (by omega)
  have behind : Digital fraction ∧ fraction ≠ [] :=
    fractions ▸ digital_behind (fun c listed => digital c (List.mem_of_mem_drop listed)) _
  rw [text]
  cases fraction with
  | nil => exact absurd rfl behind.2
  | cons c rest =>
      obtain ⟨y, reads⟩ := exists_readNumber_fraction negative form behind.1 short
      exact ⟨y, fun rest ends => by rw [List.append_assoc, List.cons_append, reads rest ends]⟩

theorem exists_readNumber_scientific {d : Digits} (negative : Bool) (written : Written d)
    (scientific : ¬(Number.layout.leastPoint ≤ d.point ∧ d.point ≤ Number.layout.greatestPoint)) :
    ∃ y, ∀ rest, Ends rest →
      readNumber negative (Number.layout.write d ++ rest) = .ok (.double y, rest) := by
  obtain ⟨c, rest, digits, -⟩ := written.leading
  have text : Number.layout.write d = [c] ++ ((if rest = [] then [] else '.' :: rest) ++
      'e' :: (if 0 ≤ d.point - 1 then '+' else '-') :: Nat.toDigits 10 (d.point - 1).natAbs) := by
    rw [Layout.write, if_neg scientific, digits]
    cases rest <;> simp
  have scales : (Decimal.ofScaled? (Nat.ofDigitChars 10 (c :: rest) 0)
      (d.point - 1 - rest.length)).isSome := by
    have length : d.digits.length = rest.length + 1 := by rw [digits, List.length_cons]
    rw [← digits]
    rcases Int.lt_or_le (d.point - 1 - rest.length) 0 with down | up
    · exact isSome_ofScaled?_of_neg _ down
    · obtain ⟨e, exponent⟩ := Int.eq_ofNat_of_zero_le up
      rw [exponent]
      exact isSome_ofScaled? written.pos written.small (written.bound e (by omega))
  have near : (d.point - 1).natAbs < exponentLimit := by
    have limit : exponentLimit = 2147483648 := by decide
    have place := written.near
    omega
  obtain ⟨y, reads⟩ := exists_readNumber_exponent negative (digits ▸ written.isDigit)
    (digits ▸ written.small) near scales
  refine ⟨y, fun rest ends => ?_⟩
  rw [← reads rest ends, text]
  simp only [List.append_assoc, List.cons_append]

theorem exists_readNumber_layout {d : Digits} (negative : Bool) (written : d = ⟨[], 0⟩ ∨ Written d) :
    ∃ y, ∀ rest, Ends rest →
      readNumber negative (Number.layout.write d ++ rest) = .ok (.double y, rest) := by
  rcases written with rfl | written
  · exact exists_readNumber_positional negative nofun nofun (by decide)
  · by_cases positional : Number.layout.leastPoint ≤ d.point ∧ d.point ≤ Number.layout.greatestPoint
    · refine exists_readNumber_positional negative written.isDigit ?_ positional
      obtain ⟨c, rest, first, nonzero⟩ := written.leading
      rintro c' rest' same
      exact (List.cons.inj (first.symm.trans same)).1 ▸ nonzero
    · exact exists_readNumber_scientific negative written positional

/-! ### Numbers as values -/

theorem skipGap_of_head {c : Char} {s : List Char} (solid : isGap c = false) : skipGap (c :: s) = c :: s := by
  rw [skipGap, List.dropWhile_cons, if_neg (by simp [solid])]

theorem isGap_of_isDigit {c : Char} (digit : c.isDigit = true) : isGap c = false := by
  by_contra gap
  simp only [isGap, Bool.not_eq_false, Bool.or_eq_true, decide_eq_true_eq] at gap
  rcases gap with ((rfl | rfl) | rfl) | rfl <;> cases digit

theorem head_of_readNumber {negative : Bool} {s rest : List Char} {n : Number}
    (reads : readNumber negative s = .ok (n, rest)) : ∃ c r, s = c :: r ∧ c.isDigit = true := by
  cases s with
  | nil => cases reads
  | cons c r =>
      by_cases digit : c.isDigit = true
      · exact ⟨c, r, rfl, digit⟩
      · rw [readNumber] at reads
        simp only [List.takeWhile_cons, if_neg digit] at reads
        cases reads

theorem readValue_number {s rest : List Char} {n : Number} (fuel depth : Nat)
    (reads : readNumber false s = .ok (n, rest)) :
    readValue (fuel + 1) depth s = .ok (.num n, rest) := by
  obtain ⟨c, r, rfl, digit⟩ := head_of_readNumber reads
  rw [readValue, skipGap_of_head (isGap_of_isDigit digit)]
  split <;> simp_all

theorem readValue_negative {s rest : List Char} {n : Number} (fuel depth : Nat)
    (reads : readNumber true s = .ok (n, rest)) :
    readValue (fuel + 1) depth ('-' :: s) = .ok (.num n, rest) := by
  rw [readValue, skipGap_of_head rfl]
  simp [reads]

/-- The text of a number: after a sign that may stand there, `n` is read. -/
def Numeral (text : List Char) (n : Number) : Prop :=
  ∃ (negative : Bool) (digits : List Char), text = (if negative then ['-'] else []) ++ digits ∧
    ∀ rest, Ends rest → readNumber negative (digits ++ rest) = .ok (n, rest)

theorem ends_nil : Ends [] := nofun

theorem Numeral.head {text : List Char} {n : Number} (numeral : Numeral text n) :
    ∃ c r, text = c :: r ∧ (c = '-' ∨ c.isDigit = true) := by
  obtain ⟨negative, digits, rfl, reads⟩ := numeral
  cases negative with
  | true => exact ⟨'-', digits, rfl, .inl rfl⟩
  | false =>
      obtain ⟨c, r, first, digit⟩ := head_of_readNumber (reads [] ends_nil)
      exact ⟨c, r, by simpa using first, .inr digit⟩

theorem Numeral.readValue {text rest : List Char} {n : Number} (numeral : Numeral text n)
    (fuel depth : Nat) (ends : Ends rest) :
    readValue (fuel + 1) depth (text ++ rest) = .ok (.num n, rest) := by
  obtain ⟨negative, digits, rfl, reads⟩ := numeral
  cases negative with
  | true => exact readValue_negative fuel depth (reads rest ends)
  | false => exact readValue_number fuel depth (reads rest ends)

theorem numeral_int {n : Int} (least : -2 ^ 63 ≤ n) (less : n < 2 ^ 64) :
    Numeral (toString n).toList (.int n) := by
  have limit : digitLimit = 2 ^ 64 := rfl
  cases n with
  | ofNat n =>
      refine ⟨false, Nat.toDigits 10 n, Nat.toList_repr, fun rest ends => ?_⟩
      rw [readNumber_toDigits false (by rw [limit]; exact Int.ofNat_lt.1 less) ends, if_pos rfl]
      rfl
  | negSucc n =>
      have near : ¬(n + 1 = 0 ∨ Nat.pow 2 63 < n + 1) := by
        rw [Nat.pow_eq]
        omega
      refine ⟨true, Nat.toDigits 10 (n + 1), ?_, fun rest ends => ?_⟩
      · show (("-" : String) ++ (n + 1).repr).toList = _
        rw [String.toList_append, Nat.toList_repr]
        rfl
      · rw [readNumber_toDigits true (by rw [limit]; omega) ends, if_neg Bool.noConfusion, if_neg near]
        rfl

/-- The double that is read where `x` is written. -/
def reread (x : Float) : Float :=
  match Json.readValue 1 1 (Number.writeDouble x) with
  | .ok (num (.double y), _) => y
  | _ => x

theorem numeral_double {x : Float} (finite : x.isFinite = true) :
    Numeral (Number.writeDouble x) (.double (reread x)) := by
  obtain ⟨short, most⟩ := bounds_ofFloat finite
  obtain ⟨d, written, text⟩ : ∃ d : Digits, (d = ⟨[], 0⟩ ∨ Written d) ∧ Number.writeDouble x =
      (if (Binary.ofFloat x).negative then ['-'] else []) ++ Number.layout.write d := by
    by_cases zero : (Binary.ofFloat x).significand = 0
    · exact ⟨⟨[], 0⟩, .inl rfl, by rw [Number.writeDouble, Binary.write, if_pos zero]; rfl⟩
    · exact ⟨_, written_shortest (Nat.pos_of_ne_zero zero) short most,
        by rw [Number.writeDouble, Binary.write, if_neg zero]⟩
  obtain ⟨y, reads⟩ := exists_readNumber_layout (Binary.ofFloat x).negative written
  have numeral : Numeral (Number.writeDouble x) (.double y) := ⟨_, _, text, reads⟩
  have same : reread x = y := by
    have alone := numeral.readValue 0 1 ends_nil
    rw [List.append_nil] at alone
    rw [reread, alone]
  rwa [same]

end Prompt.Json
