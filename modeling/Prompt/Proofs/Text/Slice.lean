import Mathlib.Data.List.Basic
import Prompt.Text.Measure

/-!
# Byte positions in a text

A text as its bytes in UTF-8. Some byte positions lie between characters, others inside one, and a slice
exists only between two of the first kind (`slice_eq_ok_iff`). Where the bytes show an ASCII character,
there it stands, for no other character has such a byte (`charAt_iff`).
-/

namespace Prompt.Text

def bytes (s : List Char) : List UInt8 := s.flatMap String.utf8EncodeChar

@[simp] theorem bytes_nil : bytes [] = [] := rfl

@[simp] theorem bytes_cons (c : Char) (s : List Char) :
    bytes (c :: s) = String.utf8EncodeChar c ++ bytes s := rfl

@[simp] theorem bytes_append (s t : List Char) : bytes (s ++ t) = bytes s ++ bytes t :=
  List.flatMap_append

@[simp] theorem length_bytes (s : List Char) : (bytes s).length = byteSize s := by
  induction s with
  | nil => rfl
  | cons c s ih => simp [ih, String.length_utf8EncodeChar]

theorem byteSize_eq_zero {s : List Char} : byteSize s = 0 ↔ s = [] := by
  cases s with
  | nil => simp
  | cons c s =>
      have := c.utf8Size_pos
      simp
      omega

/-! ### Slices -/

def IsBoundary (s : List Char) (i : Nat) : Prop :=
  ∃ before after, s = before ++ after ∧ byteSize before = i

/-- The first `n` bytes and the rest, unless a character reaches across or there are too few. -/
def splitAtByte? (n : Nat) : List Char → Option (List Char × List Char)
  | [] => if n = 0 then some ([], []) else none
  | c :: s =>
    if n = 0 then some ([], c :: s)
    else if c.utf8Size ≤ n then (splitAtByte? (n - c.utf8Size) s).map fun p => (c :: p.1, p.2)
    else none

theorem splitAtByte?_append (s t : List Char) : splitAtByte? (byteSize s) (s ++ t) = some (s, t) := by
  induction s with
  | nil => cases t <;> simp [splitAtByte?]
  | cons c s ih =>
      have := c.utf8Size_pos
      simp only [List.cons_append, splitAtByte?, byteSize_cons, Nat.le_add_right, if_true,
        Nat.add_sub_cancel_left, ih, Option.map_some, if_neg (show ¬ c.utf8Size + byteSize s = 0 by omega)]

theorem eq_of_splitAtByte? {n : Nat} {s before after : List Char}
    (split : splitAtByte? n s = some (before, after)) : s = before ++ after ∧ byteSize before = n := by
  induction s generalizing n before with
  | nil =>
      simp only [splitAtByte?, Option.ite_none_right_eq_some, Option.some.injEq, Prod.mk.injEq] at split
      obtain ⟨rfl, rfl, rfl⟩ := split
      exact ⟨rfl, rfl⟩
  | cons c s ih =>
      rw [splitAtByte?] at split
      split at split
      · next none =>
          cases split
          exact ⟨rfl, none.symm⟩
      · obtain ⟨enough, behind⟩ := Option.ite_none_right_eq_some.1 split
        obtain ⟨p, rest, same⟩ := Option.map_eq_some_iff.1 behind
        cases same
        obtain ⟨whole, size⟩ := ih rest
        refine ⟨congrArg (c :: ·) whole, ?_⟩
        rw [byteSize_cons, size]
        omega

/-- The positions between which there is no slice. -/
structure BadRange where
  start : Nat
  stop : Nat

/-- The text from one byte position to another one. -/
def slice (s : List Char) (start stop : Nat) : Except BadRange (List Char) :=
  match splitAtByte? stop s with
  | none => .error ⟨start, stop⟩
  | some (front, _) =>
    match splitAtByte? start front with
    | none => .error ⟨start, stop⟩
    | some (_, inside) => .ok inside

theorem slice_append (before inside after : List Char) :
    slice (before ++ inside ++ after) (byteSize before) (byteSize (before ++ inside)) = .ok inside := by
  simp only [slice, splitAtByte?_append]

theorem eq_of_slice {s inside : List Char} {start stop : Nat} (cut : slice s start stop = .ok inside) :
    ∃ before after, s = before ++ inside ++ after ∧ byteSize before = start ∧
      byteSize (before ++ inside) = stop := by
  unfold slice at cut
  split at cut
  · cases cut
  · next front after upper =>
      split at cut
      · cases cut
      · next before inside lower =>
          cases cut
          obtain ⟨rfl, size⟩ := eq_of_splitAtByte? upper
          obtain ⟨rfl, size'⟩ := eq_of_splitAtByte? lower
          exact ⟨before, after, rfl, size', size⟩

theorem slice_eq_ok_iff {s inside : List Char} {start stop : Nat} :
    slice s start stop = .ok inside ↔ ∃ before after, s = before ++ inside ++ after ∧
      byteSize before = start ∧ byteSize (before ++ inside) = stop := by
  constructor
  · exact eq_of_slice
  · rintro ⟨before, after, rfl, rfl, rfl⟩
    exact slice_append before inside after

/-- Of two cuts the one at the lower position comes first. -/
theorem exists_between {s t before after : List Char} (same : s ++ t = before ++ after)
    (le : byteSize s ≤ byteSize before) : ∃ more, before = s ++ more ∧ t = more ++ after := by
  rcases List.append_eq_append_iff.1 same with found | ⟨more, rfl, rfl⟩
  · exact found
  · rw [byteSize_append] at le
    obtain rfl := byteSize_eq_zero.1 (show byteSize more = 0 by omega)
    exact ⟨[], by simp, by simp⟩

/-! ### Characters and their bytes -/

theorem utf8EncodeChar_of_ascii {c : Char} (ascii : c.toNat < 128) :
    String.utf8EncodeChar c = [c.toUInt8] := by
  have small : c.val.toNat ≤ 127 := Nat.le_of_lt_succ ascii
  simp only [String.utf8EncodeChar, small, if_true]
  rfl

theorem le_of_mem_utf8EncodeChar {c : Char} (wide : 128 ≤ c.toNat) {b : UInt8}
    (member : b ∈ String.utf8EncodeChar c) : 128 ≤ b.toNat := by
  have large : ¬ c.val.toNat ≤ 127 := Nat.not_le.2 wide
  simp only [String.utf8EncodeChar, large, if_false] at member
  split at member
  · simp only [List.mem_cons, List.not_mem_nil, or_false] at member
    rcases member with rfl | rfl <;> simp only [UInt8.toNat_ofNat'] <;> omega
  · split at member
    · simp only [List.mem_cons, List.not_mem_nil, or_false] at member
      rcases member with rfl | rfl | rfl <;> simp only [UInt8.toNat_ofNat'] <;> omega
    · simp only [List.mem_cons, List.not_mem_nil, or_false] at member
      rcases member with rfl | rfl | rfl | rfl <;> simp only [UInt8.toNat_ofNat'] <;> omega

/-- The byte at position `i` is that of the ASCII character. -/
def CharAt (c : Char) (s : List Char) (i : Nat) : Prop := (bytes s)[i]? = some c.toUInt8

theorem charAt_append_right (c : Char) (s t : List Char) (i : Nat) :
    CharAt c (s ++ t) (byteSize s + i) ↔ CharAt c t i := by
  rw [CharAt, bytes_append, List.getElem?_append_right (by simp), length_bytes, Nat.add_sub_cancel_left]
  rfl

section Ascii
variable {c : Char} (ascii : c.toNat < 128)
include ascii

theorem toNat_toUInt8 : c.toUInt8.toNat = c.toNat := by
  show c.val.toNat % 256 = c.val.toNat
  have : c.val.toNat < 128 := ascii
  omega

theorem charAt_zero {d : Char} {s : List Char} : CharAt c (d :: s) 0 ↔ d = c := by
  rcases Nat.lt_or_ge d.toNat 128 with narrow | wide
  · rw [CharAt, bytes_cons, utf8EncodeChar_of_ascii narrow]
    simp only [List.cons_append, List.getElem?_cons_zero, Option.some.injEq]
    constructor
    · intro same
      apply Char.ext
      apply UInt32.toNat_inj.1
      have := congrArg UInt8.toNat same
      rwa [toNat_toUInt8 narrow, toNat_toUInt8 ascii] at this
    · rintro rfl
      rfl
  · constructor
    · intro stands
      have pos : 0 < (String.utf8EncodeChar d).length := by
        rw [String.length_utf8EncodeChar]
        exact d.utf8Size_pos
      rw [CharAt, bytes_cons, List.getElem?_append_left pos] at stands
      have byte := le_of_mem_utf8EncodeChar wide (List.mem_of_getElem? stands)
      rw [toNat_toUInt8 ascii] at byte
      omega
    · rintro rfl
      omega

theorem charAt_iff {s : List Char} {i : Nat} :
    CharAt c s i ↔ ∃ before after, s = before ++ c :: after ∧ byteSize before = i := by
  constructor
  · intro stands
    induction s generalizing i with
    | nil => cases stands
    | cons d s ih =>
        rcases Nat.lt_or_ge i d.utf8Size with inside | behind
        · have size := String.length_utf8EncodeChar d
          have byte := stands
          rw [CharAt, bytes_cons, List.getElem?_append_left (by omega)] at byte
          -- a byte of a wider character is never one of an ASCII character
          have narrow : d.toNat < 128 := by
            by_contra wide
            have := le_of_mem_utf8EncodeChar (Nat.not_lt.1 wide) (List.mem_of_getElem? byte)
            rw [toNat_toUInt8 ascii] at this
            omega
          rw [utf8EncodeChar_of_ascii narrow, List.length_singleton] at size
          obtain rfl : i = 0 := by omega
          rw [charAt_zero ascii] at stands
          exact ⟨[], s, by rw [stands]; rfl, rfl⟩
        · obtain ⟨j, rfl⟩ := Nat.exists_eq_add_of_le behind
          have rest : CharAt c s j := (charAt_append_right c [d] s j).1 stands
          obtain ⟨before, after, rfl, rfl⟩ := ih rest
          exact ⟨d :: before, after, rfl, rfl⟩
  · rintro ⟨before, after, rfl, rfl⟩
    exact (charAt_append_right c before (c :: after) 0).2 ((charAt_zero ascii).2 rfl)

end Ascii

/-- The ASCII character stands at the position and once more behind itself. -/
def TwiceAt (c : Char) (s : List Char) (i : Nat) : Prop := CharAt c s i ∧ CharAt c s (i + 1)

theorem twiceAt_iff {c : Char} (ascii : c.toNat < 128) {s : List Char} {i : Nat} :
    TwiceAt c s i ↔ ∃ before after, s = before ++ c :: c :: after ∧ byteSize before = i := by
  have size : c.utf8Size = 1 := by
    rw [← String.length_utf8EncodeChar, utf8EncodeChar_of_ascii ascii]
    rfl
  constructor
  · rintro ⟨first, second⟩
    obtain ⟨before, after, rfl, rfl⟩ := (charAt_iff ascii).1 first
    have next : CharAt c (c :: after) 1 := (charAt_append_right c before (c :: after) 1).1 second
    have next : CharAt c after 0 := (charAt_append_right c [c] after 0).1 (by simpa [size] using next)
    obtain ⟨more, after, rfl, none⟩ := (charAt_iff ascii).1 next
    obtain rfl := byteSize_eq_zero.1 none
    exact ⟨before, after, rfl, rfl⟩
  · rintro ⟨before, after, rfl, rfl⟩
    refine ⟨(charAt_iff ascii).2 ⟨before, c :: after, rfl, rfl⟩, (charAt_iff ascii).2 ?_⟩
    exact ⟨before ++ [c], after, by simp, by simp [size]⟩

end Prompt.Text
