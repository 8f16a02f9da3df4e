import Prompt.Proofs.Template.Cleaning

/-!
# Text between plain texts

Cleaning a text that stands between plain ones changes only the text itself: a tag cannot reach into a plain
text, whichever braces the other one holds (`eraseTags_framed`), and with ink at both ends there is no blank
space to take away outside (`normalize_framed`).
-/

namespace Prompt.Template

/-! ### Tags -/

section Break
variable {c : Char} {frame : List Char} (free : c ∉ frame)
include free

theorem breakFirst?_append_left (s : List Char) :
    breakFirst? c (frame ++ s) = (breakFirst? c s).map fun p => (frame ++ p.1, p.2) := by
  induction frame with
  | nil => simp
  | cons a frame ih =>
      rw [List.mem_cons, not_or] at free
      rw [List.cons_append, breakFirst?_cons fun same => absurd same.symm free.1, ih free.2,
        Option.map_map]
      rfl

theorem breakFirst?_append_right (s : List Char) :
    breakFirst? c (s ++ frame) = (breakFirst? c s).map fun p => (p.1, p.2 ++ frame) := by
  cases found : breakFirst? c s with
  | some p =>
      obtain ⟨whole, first⟩ := breakFirst?_eq_some_iff.1 found
      exact breakFirst?_eq_some_iff.2 ⟨by simp [whole], first⟩
  | none =>
      refine breakFirst?_eq_none_iff.2 fun twice => breakFirst?_eq_none_iff.1 found ?_
      obtain ⟨before, after, whole⟩ := doubled_iff.1 twice
      have split : s ++ frame = (before ++ [c]) ++ c :: after := by simp [whole]
      rcases List.append_eq_append_iff.1 split with ⟨more, -, inside⟩ | ⟨more, inside, behind⟩
      · exact absurd (inside ▸ List.mem_append_right more List.mem_cons_self) free
      · cases more with
        | nil => exact absurd ((List.nil_append frame ▸ behind) ▸ List.mem_cons_self) free
        | cons d more =>
            cases behind
            exact doubled_iff.2 ⟨before, more, by simp [inside]⟩

end Break

variable {frame : List Char}

theorem firstTag?_append_left (opens : openBrace ∉ frame) (s : List Char) :
    firstTag? (frame ++ s) = (firstTag? s).map fun f => { f with before := frame ++ f.before } := by
  unfold firstTag?
  rw [breakFirst?_append_left opens]
  cases breakFirst? openBrace s with
  | none => rfl
  | some p =>
      simp only [Option.map_some]
      cases breakFirst? closeBrace p.2 with
      | none => rfl
      | some q =>
          simp only
          cases breakLast? openBrace (openBrace :: openBrace :: q.1) with
          | none => rfl
          | some last => simp

theorem firstTag?_append_right (plain : Plain frame) (s : List Char) :
    firstTag? (s ++ frame) = (firstTag? s).map fun f => { f with after := f.after ++ frame } := by
  unfold firstTag?
  rw [breakFirst?_append_right plain.1]
  cases breakFirst? openBrace s with
  | none => rfl
  | some p =>
      simp only [Option.map_some]
      rw [breakFirst?_append_right plain.2]
      cases breakFirst? closeBrace p.2 with
      | none => rfl
      | some q =>
          simp only [Option.map_some]
          cases breakLast? openBrace (openBrace :: openBrace :: q.1) with
          | none => rfl
          | some last => rfl

theorem scan_of_firstTag?_none {s : List Char} (missing : firstTag? s = none) : scan s = [.text s] :=
  scan_of_not_hasTag (firstTag?_eq_none_iff.1 missing)

theorem eraseTags_append_left (opens : openBrace ∉ frame) (s : List Char) :
    eraseTags (scan (frame ++ s)) = frame ++ eraseTags (scan s) := by
  have first := firstTag?_append_left opens s
  cases found : firstTag? s with
  | none =>
      rw [found] at first
      rw [scan_of_firstTag?_none found, scan_of_firstTag?_none first]
      simp [eraseTags]
  | some f =>
      rw [found] at first
      rw [scan_of_firstTag? found, scan_of_firstTag? first]
      simp

theorem eraseTags_append_right (plain : Plain frame) (s : List Char) :
    eraseTags (scan (s ++ frame)) = eraseTags (scan s) ++ frame := by
  fun_induction scan s with
  | case1 s missing =>
      have first := firstTag?_append_right plain s
      rw [missing] at first
      rw [scan_of_firstTag?_none first]
      simp [eraseTags]
  | case2 s f found ih =>
      have first := firstTag?_append_right plain s
      rw [found] at first
      rw [scan_of_firstTag? first]
      simp [ih]

theorem eraseTags_framed {before after : List Char} (opens : openBrace ∉ before) (plain : Plain after)
    (s : List Char) :
    eraseTags (scan (before ++ s ++ after)) = before ++ eraseTags (scan s) ++ after := by
  rw [eraseTags_append_right plain, eraseTags_append_left opens]

/-! ### Blank space -/

theorem limitBreaks_append_left {before : List Char} (unbroken : '\n' ∉ before) (s : List Char) :
    limitBreaks 0 (before ++ s) = before ++ limitBreaks 0 s := by
  induction before with
  | nil => rfl
  | cons a before ih =>
      rw [List.mem_cons, not_or] at unbroken
      rw [List.cons_append, limitBreaks_of_ne (Ne.symm unbroken.1), ih unbroken.2]
      rfl

theorem limitBreaks_append_right {after : List Char} (unbroken : '\n' ∉ after) (seen : Nat)
    (s : List Char) : limitBreaks seen (s ++ after) = limitBreaks seen s ++ after := by
  induction s generalizing seen with
  | nil =>
      cases after with
      | nil => rfl
      | cons a after =>
          rw [List.mem_cons, not_or] at unbroken
          have rest := limitBreaks_append_left unbroken.2 []
          rw [List.append_nil, limitBreaks, List.append_nil] at rest
          rw [List.nil_append, limitBreaks_of_ne (Ne.symm unbroken.1), rest]
          rfl
  | cons a s ih =>
      simp only [List.cons_append, limitBreaks, ih]
      split
      · split <;> rfl
      · rfl

def isInk (c : Option Char) : Bool := c.any fun c => !Text.isBlank c

theorem normalize_framed {before after : List Char} (starts : isInk before.head? = true)
    (ends : isInk after.getLast? = true) (unbroken : '\n' ∉ before ∧ '\n' ∉ after) (s : List Char) :
    normalize (before ++ s ++ after) = before ++ limitBreaks 0 s ++ after := by
  rw [normalize, limitBreaks_append_right unbroken.2, limitBreaks_append_left unbroken.1]
  cases before with
  | nil => cases starts
  | cons first before =>
      rcases List.eq_nil_or_concat after with rfl | ⟨after, last, rfl⟩
      · cases ends
      · have inked : Text.isBlank first = false ∧ Text.isBlank last = false := by
          simpa [isInk] using And.intro starts ends
        have front := trimStart_append inked.1 [] (before ++ limitBreaks 0 s ++ (after ++ [last]))
        have back := trimEnd_append inked.2 (first :: before ++ limitBreaks 0 s ++ after) []
        simp_all [Text.trim, Text.trimStart, Text.trimEnd]

end Prompt.Template
