import Mathlib.Order.Bounds.Basic
import Prompt.Proofs.Template.Lossless

/-!
# Which tag is found

The tag that a scan finds from a position on, said by the positions of braces: it ends at the first closing
pair that has an opening pair before it, and begins at the last opening pair before that
(`nextTag_innermost`). All positions lie between characters, so that no slice fails.
-/

namespace Prompt.Template

open Text

/-- From `start` on, an opening pair stands at `i` and a closing pair at `j` behind it. -/
def Spans (s : List Char) (start i j : Nat) : Prop :=
  start ≤ i ∧ i + 2 ≤ j ∧ TwiceAt openBrace s i ∧ TwiceAt closeBrace s j

section Spans
variable {before rest : List Char} {i j : Nat}

theorem spans_iff : Spans (before ++ rest) (byteSize before) i j ↔
    ∃ front inner back, rest = front ++ tagSource inner ++ back ∧ i = byteSize before + byteSize front ∧
      j = i + 2 + byteSize inner := by
  constructor
  · rintro ⟨start, apart, opens, closes⟩
    obtain ⟨outer, opened, whole, rfl⟩ := twiceAt_open.1 opens
    obtain ⟨front, rfl, rfl⟩ := exists_between whole start
    obtain ⟨upto, back, whole', rfl⟩ := twiceAt_close.1 closes
    have split : (before ++ front ++ [openBrace, openBrace]) ++ opened = upto ++ closeBrace :: closeBrace :: back := by
      rw [← whole', whole]
      simp
    obtain ⟨inner, rfl, rfl⟩ := exists_between split (by simpa [Nat.add_assoc] using apart)
    refine ⟨front, inner, back, by simp [tagSource], byteSize_append before front, ?_⟩
    simp
    omega
  · rintro ⟨front, inner, back, rfl, rfl, rfl⟩
    refine ⟨Nat.le_add_right _ _, Nat.le_add_right _ _, twiceAt_open.2 ?_, twiceAt_close.2 ?_⟩
    · exact ⟨before ++ front, inner ++ closeBrace :: closeBrace :: back, by simp [tagSource], by simp⟩
    · refine ⟨before ++ front ++ openBrace :: openBrace :: inner, back, by simp [tagSource], ?_⟩
      simp
      omega

theorem exists_spans_iff : (∃ i j, Spans (before ++ rest) (byteSize before) i j) ↔ HasTag rest := by
  constructor
  · rintro ⟨i, j, spans⟩
    obtain ⟨front, inner, back, split, -⟩ := spans_iff.1 spans
    exact ⟨front, inner, back, split⟩
  · rintro ⟨front, inner, back, split⟩
    exact ⟨_, _, spans_iff.2 ⟨front, inner, back, split, rfl, rfl⟩⟩

variable {f : Found} (found : firstTag? rest = some f)
include found

theorem spans_found : Spans (before ++ rest) (byteSize before) (byteSize before + byteSize f.before)
    (byteSize before + byteSize f.before + 2 + byteSize f.inner) :=
  spans_iff.2 ⟨f.before, f.inner, f.after, eq_of_firstTag? found, rfl, rfl⟩

theorem isLeast_close : IsLeast {j | ∃ i, Spans (before ++ rest) (byteSize before) i j}
    (byteSize before + byteSize f.before + 2 + byteSize f.inner) := by
  refine ⟨⟨_, spans_found found⟩, ?_⟩
  rintro j ⟨i, spans⟩
  obtain ⟨front, inner, back, split, rfl, rfl⟩ := spans_iff.1 spans
  obtain ⟨more, ends⟩ := suffix_of_firstTag? found split
  have size := congrArg byteSize (split.symm.trans (eq_of_firstTag? found))
  rw [← ends] at size
  simp at size
  omega

/-- Another opening pair before the same closing pair would stand inside the tag. -/
theorem isGreatest_open : IsGreatest {i | Spans (before ++ rest) (byteSize before) i
    (byteSize before + byteSize f.before + 2 + byteSize f.inner)} (byteSize before + byteSize f.before) := by
  refine ⟨spans_found found, ?_⟩
  rintro i spans
  obtain ⟨front, inner, back, split, rfl, close⟩ := spans_iff.1 spans
  by_contra later
  have whole : f.before ++ (tagSource f.inner ++ f.after) = front ++ (tagSource inner ++ back) := by
    rw [← List.append_assoc, ← List.append_assoc, ← split, ← eq_of_firstTag? found]
  obtain ⟨more, rfl, inside⟩ := exists_between whole (by omega)
  match more, inside with
  | [], inside => simp at later
  | c :: more, inside =>
      have inside' : (openBrace :: f.inner) ++ closeBrace :: closeBrace :: f.after =
          more ++ [openBrace, openBrace] ++ (inner ++ closeBrace :: closeBrace :: back) := by
        simpa [tagSource] using congrArg List.tail inside
      have wide := c.utf8Size_pos
      obtain ⟨behind, same, -⟩ := exists_between inside'.symm (by simp at close ⊢; omega)
      apply (sealed_of_firstTag? found).opening
      exact doubled_iff.2 ⟨more, behind, by simpa using same⟩

theorem slice_inner : slice (before ++ rest) ((f.tag (byteSize before)).start + 2)
    (byteSize before + byteSize f.before + 2 + byteSize f.inner) = .ok f.inner := by
  apply slice_eq_ok_iff.2
  refine ⟨before ++ f.before ++ [openBrace, openBrace], closeBrace :: closeBrace :: f.after, ?_, ?_, ?_⟩
  · rw [eq_of_firstTag? found]
    simp [tagSource]
  · simp [Found.tag]
    omega
  · simp
    omega

variable (before) in
theorem isBoundary_tag : IsBoundary (before ++ rest) (f.tag (byteSize before)).start ∧
    IsBoundary (before ++ rest) (f.tag (byteSize before)).stop := by
  rw [eq_of_firstTag? found]
  constructor
  · exact ⟨before ++ f.before, tagSource f.inner ++ f.after, by simp, by simp [Found.tag]⟩
  · exact ⟨before ++ (f.before ++ tagSource f.inner), f.after, by simp, by simp [Found.tag]⟩

end Spans

theorem Cursor.exists_findClose (name : List Char) {s : List Char} {start : Nat}
    (boundary : IsBoundary s start) : ∃ close, Cursor.findClose s name start = .ok close := by
  obtain ⟨before, rest, whole, rfl⟩ := boundary
  cases closes : splitAtClose? name (scan rest) with
  | none => exact ⟨none, Cursor.findClose_none whole closes⟩
  | some p =>
      obtain ⟨ahead, found⟩ := Cursor.findClose_some whole closes
      exact ⟨_, found⟩

/-- The tag in bytes and braces. None is found exactly when no closing pair has an opening pair before it.
Otherwise the tag ends at the first such closing pair and begins at the last opening pair before that, with
no pair inside; it stands between boundaries and ends behind the position. So neither this nor a scan,
a replacement or a check reads a slice that does not exist. -/
theorem nextTag_innermost {s : List Char} {start : Nat} (boundary : IsBoundary s start) :
    (∃ found, Cursor.nextTag s start = .ok found ∧
      (∀ before rest, s = before ++ rest → byteSize before = start →
        found = (firstTag? rest).map (Found.tag start)) ∧
      (found = none ↔ ¬ ∃ i j, Spans s start i j) ∧
      ∀ t, found = some t → ∃ close,
        IsLeast {j | ∃ i, Spans s start i j} close ∧ IsGreatest {i | Spans s start i close} t.start ∧
        t.stop = close + 2 ∧ slice s (t.start + 2) close = .ok t.inner ∧
        ¬ Doubled openBrace t.inner ∧ ¬ Doubled closeBrace t.inner ∧
        IsBoundary s t.start ∧ IsBoundary s t.stop ∧ start < t.stop) ∧
    (∀ name, ∃ close, Cursor.findClose s name start = .ok close) ∧
    (∀ answer, ∃ out, Cursor.replaceTags answer s = .ok out) ∧
    (∀ opener render, ∃ out, Cursor.replaceBlocks opener render s = .ok out) ∧
    ∀ sample, Cursor.check sample s = .ok (checkFrom sample [] 0 (scan s)) := by
  refine ⟨?_, fun name => Cursor.exists_findClose name boundary,
    fun answer => ⟨_, Cursor.replaceTags_eq answer s⟩, fun opener render => ?_,
    fun sample => Cursor.check_eq sample s⟩
  · obtain ⟨before, rest, rfl, rfl⟩ := boundary
    refine ⟨_, Cursor.nextTag_append before rest, fun before' rest' split size => ?_, ?_, fun t first => ?_⟩
    · obtain ⟨more, rfl, rest_eq⟩ := exists_between split size.ge
      obtain rfl := byteSize_eq_zero.1 (show byteSize more = 0 by simpa using size)
      rw [rest_eq, List.nil_append]
    · rw [Option.map_eq_none_iff, firstTag?_eq_none_iff, exists_spans_iff]
    · obtain ⟨f, found, rfl⟩ := Option.map_eq_some_iff.1 first
      have shut := sealed_of_firstTag? found
      have bounds := isBoundary_tag before found
      have stop : (f.tag (byteSize before)).stop =
          byteSize before + byteSize f.before + 2 + byteSize f.inner + 2 := by
        simp [Found.tag]
        omega
      exact ⟨_, isLeast_close found, isGreatest_open found, stop, slice_inner found,
        fun twice => shut.opening (twice.mono (List.suffix_cons _ _).isInfix),
        fun twice => shut.closing (twice.mono (List.prefix_append _ _).isInfix),
        bounds.1, bounds.2, by omega⟩
  · obtain ⟨parts, cut⟩ := exists_cut opener (scan s)
    exact ⟨_, Cursor.replaceBlocks_eq render cut⟩

/-- A letter of two bytes and a tag in braces of its own. -/
def braced : List Char := 'é' :: openBrace :: tagSource ['a'] ++ [closeBrace]

theorem nextTag_braced : IsBoundary braced 2 ∧ Cursor.nextTag braced 2 = .ok (some ⟨3, 8, ['a']⟩) ∧
    IsLeast {j | ∃ i, Spans braced 2 i j} 6 ∧ IsGreatest {i | Spans braced 2 i 6} 3 := by
  have boundary : IsBoundary braced 2 := ⟨['é'], braced.tail, rfl, by decide⟩
  obtain ⟨⟨found, next, first, -, innermost⟩, -⟩ := nextTag_innermost boundary
  obtain rfl : found = some ⟨3, 8, ['a']⟩ := first ['é'] braced.tail rfl (by decide)
  obtain ⟨close, least, greatest, stop, -⟩ := innermost _ rfl
  obtain rfl : 6 = close := Nat.add_right_cancel (m := 2) stop
  exact ⟨boundary, next, least, greatest⟩

end Prompt.Template
