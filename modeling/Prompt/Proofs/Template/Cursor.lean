import Prompt.Proofs.Template.Scan
import Prompt.Proofs.Text.Slice

/-!
# The next tag from a byte position on

A scan with a cursor into one text. Whatever it looks at is a slice of the text, and a slice fails between
the wrong positions; here none does. From a boundary on, the tag that is found is the first one of the rest
(`nextTag_append`), and it ends behind the cursor.
-/

namespace Prompt.Template

open Text

/-- A tag, where it begins, and where the text behind it begins. -/
structure Tag where
  start : Nat
  stop : Nat
  inner : List Char

/-- The tag that was found in the text from a position on. -/
def Found.tag (start : Nat) (f : Found) : Tag :=
  ⟨start + byteSize f.before, start + byteSize (f.before ++ tagSource f.inner), f.inner⟩

@[simp] theorem utf8Size_openBrace : openBrace.utf8Size = 1 := by decide

@[simp] theorem utf8Size_closeBrace : closeBrace.utf8Size = 1 := by decide

@[simp] theorem byteSize_tagSource (inner : List Char) :
    byteSize (tagSource inner) = byteSize inner + 4 := by
  simp [tagSource]
  omega

theorem twiceAt_open {s : List Char} {i : Nat} : TwiceAt openBrace s i ↔
    ∃ before after, s = before ++ openBrace :: openBrace :: after ∧ byteSize before = i :=
  twiceAt_iff (by decide)

theorem twiceAt_close {s : List Char} {i : Nat} : TwiceAt closeBrace s i ↔
    ∃ before after, s = before ++ closeBrace :: closeBrace :: after ∧ byteSize before = i :=
  twiceAt_iff (by decide)

namespace Cursor

@[simp] theorem ok_bind {ε α β : Type} (a : α) (f : α → Except ε β) : (Except.ok a >>= f) = f a := rfl

def find? (c : Char) (s : List Char) : Option Nat := (breakFirst? c s).map fun p => byteSize p.1

def findLast? (c : Char) (s : List Char) : Option Nat := (breakLast? c s).map fun p => byteSize p.1

/-- Steps over the braces between an opening pair and the inner text. -/
def skipBraces (s : List Char) (start close : Nat) : Except BadRange Nat :=
  match _inside : slice s (start + 2) close with
  | .error e => .error e
  | .ok [] => .ok start
  | .ok (c :: _) => if c = openBrace then skipBraces s (start + 1) close else .ok start
termination_by close - start
decreasing_by
  obtain ⟨before, after, -, lower, upper⟩ := eq_of_slice _inside
  rw [byteSize_append, byteSize_cons] at upper
  have := c.utf8Size_pos
  omega

/-- The first tag from a position on: the first closing pair behind the first opening pair, and the last
opening pair before it. -/
def nextTag (s : List Char) (start : Nat) : Except BadRange (Option Tag) :=
  match splitAtByte? start s with
  | none => return none
  | some (_, rest) =>
    match find? openBrace rest with
    | none => return none
    | some n => do
      let first := start + n
      let behind ← slice s (first + 2) (byteSize s)
      match find? closeBrace behind with
      | none => return none
      | some m =>
        let close := first + 2 + m
        let body ← slice s (first + 2) close
        let last := match findLast? openBrace body with
          | some nested => first + 2 + nested
          | none => first
        let start ← skipBraces s last close
        let inner ← slice s (start + 2) close
        return some ⟨start, close + 2, inner⟩

section NextTag
variable {s front body after : List Char} {start : Nat}

theorem skipBraces_stop (whole : s = front ++ body ++ after) (size : byteSize front = start + 2)
    (other : body.head? ≠ some openBrace) :
    skipBraces s start (byteSize (front ++ body)) = .ok start := by
  have inside := slice_eq_ok_iff.2 ⟨front, after, whole, size, rfl⟩
  rw [skipBraces]
  split
  · next failed =>
      rw [inside] at failed
      cases failed
  · rfl
  · next c rest cut =>
      rw [inside] at cut
      cases cut
      exact if_neg fun same => other (by rw [same]; rfl)

theorem skipBraces_step (whole : s = front ++ openBrace :: body ++ after)
    (size : byteSize front = start + 2) :
    skipBraces s start (byteSize (front ++ openBrace :: body)) =
      skipBraces s (start + 1) (byteSize (front ++ openBrace :: body)) := by
  have inside := slice_eq_ok_iff.2 ⟨front, after, whole, size, rfl⟩
  rw [skipBraces]
  split
  · next failed =>
      rw [inside] at failed
      cases failed
  · next cut =>
      rw [inside] at cut
      cases cut
  · next c rest cut =>
      rw [inside] at cut
      cases cut
      exact if_pos rfl

theorem head?_of_not_doubled {c : Char} {s : List Char} (free : ¬ Doubled c (c :: s)) :
    s.head? ≠ some c := by
  rintro starts
  obtain ⟨rest, rfl⟩ := List.head?_eq_some_iff.1 starts
  exact free (doubled_cons_cons.2 (.inl ⟨rfl, rfl⟩))

/-- The last pair of braces inside, or else a brace that stands too close, leads to the innermost pair. -/
theorem skipBraces_innermost {outer inner : List Char} (whole : s = front ++ body ++ after)
    (size : byteSize front = start + 2)
    (last : breakLast? openBrace (openBrace :: openBrace :: body) = some (outer, inner)) :
    skipBraces s (match findLast? openBrace body with
      | some nested => start + 2 + nested
      | none => start) (byteSize (front ++ body)) = .ok (start + byteSize outer) := by
  have free := head?_of_not_doubled (breakLast?_eq_some last)
  cases found : breakLast? openBrace body with
  | some p =>
      obtain ⟨within, rest⟩ := p
      have split := eq_of_breakLast? found
      match body, split with
      | [], split => simp at split
      | c :: body, split =>
          simp only [breakLast?, found, Option.some.injEq, Prod.mk.injEq] at last
          obtain ⟨rfl, rfl⟩ := last
          simp only [findLast?, found, Option.map_some]
          have far : start + byteSize (openBrace :: openBrace :: within) = start + 2 + byteSize within := by
            simp
            omega
          have near : front ++ (c :: body) = front ++ within ++ [openBrace, openBrace] ++ rest := by
            rw [split]
            simp
          rw [near] at whole
          rw [far, near]
          apply skipBraces_stop whole _ free
          simp [size]
          omega
  | none =>
      simp only [findLast?, found, Option.map_none]
      by_cases starts : body.head? = some openBrace
      · obtain ⟨rest, rfl⟩ := List.head?_eq_some_iff.1 starts
        simp only [breakLast?, found, Option.some.injEq, Prod.mk.injEq, and_self, if_true] at last
        obtain ⟨rfl, rfl⟩ := last
        have near : front ++ openBrace :: rest = front ++ [openBrace] ++ rest := by simp
        rw [skipBraces_step whole size, near]
        rw [near] at whole
        apply skipBraces_stop whole _ free
        simp [size]
      · rw [skipBraces_stop whole size starts]
        have near : ¬ Doubled openBrace (openBrace :: body) := by
          cases body with
          | nil => simp
          | cons c body =>
              rw [doubled_cons_cons, not_or]
              refine ⟨fun both => starts (by rw [both.2]; rfl), ?_⟩
              exact breakLast?_eq_none_iff.1 found
        rw [breakLast?_pair near] at last
        cases last
        rfl

end NextTag

/-! From a boundary on, the tag that is found is the first one of the rest. -/

section Boundary
variable {before rest : List Char}

theorem slice_behind (before : List Char) {text opened : List Char} (opens : breakFirst? openBrace rest = some (text, opened)) :
    slice (before ++ rest) (byteSize before + byteSize text + 2) (byteSize (before ++ rest)) = .ok opened := by
  obtain rfl := eq_of_breakFirst? opens
  refine slice_eq_ok_iff.2 ⟨before ++ text ++ [openBrace, openBrace], [], by simp, ?_, by simp⟩
  simp
  omega

theorem nextTag_missing (missing : firstTag? rest = none) :
    nextTag (before ++ rest) (byteSize before) = .ok none := by
  cases opens : breakFirst? openBrace rest with
  | none =>
      simp only [nextTag, splitAtByte?_append, find?, opens, Option.map_none]
      rfl
  | some p =>
      have closes : breakFirst? closeBrace p.2 = none := by
        rw [firstTag?_eq_none_iff, hasTag_iff] at missing
        rw [breakFirst?_eq_none_iff]
        exact fun closed => missing ⟨p.1, p.2, opens, closed⟩
      simp only [nextTag, splitAtByte?_append, find?, opens, Option.map_some, slice_behind before opens,
        ok_bind,
        closes, Option.map_none]
      rfl

theorem nextTag_found {f : Found} (found : firstTag? rest = some f) :
    nextTag (before ++ rest) (byteSize before) = .ok (some (f.tag (byteSize before))) := by
  obtain ⟨text, opened, body, outer, opens, closes, last, split⟩ := firstTag?_eq_some found
  have behind := slice_behind before opens
  have whole : before ++ rest =
      (before ++ text ++ [openBrace, openBrace]) ++ body ++ closeBrace :: closeBrace :: f.after := by
    rw [eq_of_breakFirst? opens, eq_of_breakFirst? closes]
    simp
  have size : byteSize (before ++ text ++ [openBrace, openBrace]) =
      byteSize before + byteSize text + 2 := by
    simp
    omega
  have close : byteSize before + byteSize text + 2 + byteSize body =
      byteSize ((before ++ text ++ [openBrace, openBrace]) ++ body) := by
    rw [byteSize_append _ body, size]
  have reach : byteSize body + 2 = byteSize outer + 2 + byteSize f.inner := by
    have sizes := congrArg byteSize (eq_of_breakLast? last)
    simp at sizes
    omega
  have body_cut := slice_eq_ok_iff.2 ⟨_, _, whole, size, rfl⟩
  have inner_cut : slice (before ++ rest) (byteSize before + byteSize text + byteSize outer + 2)
      (byteSize ((before ++ text ++ [openBrace, openBrace]) ++ body)) = .ok f.inner := by
    refine slice_eq_ok_iff.2 ⟨before ++ f.before ++ [openBrace, openBrace],
      closeBrace :: closeBrace :: f.after, ?_, ?_, ?_⟩
    · rw [eq_of_firstTag? found]
      simp [tagSource]
    · simp [split]
      omega
    · rw [byteSize_append, ← close, split]
      simp
      omega
  simp only [nextTag, splitAtByte?_append, find?, opens, Option.map_some, behind, ok_bind, closes, close,
    body_cut, skipBraces_innermost whole size last, inner_cut]
  refine congrArg (fun t => Except.ok (some t)) ?_
  rw [Found.tag, Tag.mk.injEq, ← close, split]
  simp
  omega

end Boundary

theorem nextTag_append (before rest : List Char) : nextTag (before ++ rest) (byteSize before) =
    .ok ((firstTag? rest).map (Found.tag (byteSize before))) := by
  cases found : firstTag? rest with
  | none => exact nextTag_missing found
  | some f => exact nextTag_found found

/-- Tags that end behind a position, from which a scan can go on. -/
abbrev Ahead (s : List Char) (start : Nat) : Type :=
  {t : Tag // start < t.stop ∧ t.stop ≤ byteSize s}

def Ahead.beyond {s : List Char} {start : Nat} (t : Ahead s start) (close : Ahead s t.val.stop) :
    Ahead s start :=
  ⟨close.val, Nat.lt_trans t.property.1 close.property.1, close.property.2⟩

theorem nextTag_advances {s : List Char} {start : Nat} {t : Tag} (found : nextTag s start = .ok (some t)) :
    start < t.stop ∧ t.stop ≤ byteSize s := by
  cases split : splitAtByte? start s with
  | none =>
      rw [nextTag, split] at found
      cases found
  | some p =>
      obtain ⟨rfl, rfl⟩ := eq_of_splitAtByte? split
      rw [nextTag_append] at found
      obtain ⟨f, first, rfl⟩ := Option.map_eq_some_iff.1 (Except.ok.inj found)
      have sizes := congrArg byteSize (eq_of_firstTag? first)
      simp [Found.tag] at sizes ⊢
      omega

def next (s : List Char) (start : Nat) : Except BadRange (Option (Ahead s start)) :=
  match found : nextTag s start with
  | .error e => .error e
  | .ok none => .ok none
  | .ok (some t) => .ok (some ⟨t, nextTag_advances found⟩)

theorem next_missing {s before rest : List Char} (whole : s = before ++ rest)
    (missing : firstTag? rest = none) : next s (byteSize before) = .ok none := by
  have none_left : nextTag s (byteSize before) = .ok none := whole ▸ nextTag_missing missing
  unfold next
  split
  · next failed =>
      rw [none_left] at failed
      cases failed
  · rfl
  · next found =>
      rw [none_left] at found
      cases found

theorem next_found {s before rest : List Char} {f : Found} (whole : s = before ++ rest)
    (found : firstTag? rest = some f) :
    ∃ ahead, next s (byteSize before) = .ok (some ⟨f.tag (byteSize before), ahead⟩) := by
  have first : nextTag s (byteSize before) = .ok (some (f.tag (byteSize before))) :=
    whole ▸ nextTag_found found
  refine ⟨nextTag_advances first, ?_⟩
  unfold next
  split
  · next failed =>
      rw [first] at failed
      cases failed
  · next missing =>
      rw [first] at missing
      cases missing
  · next other =>
      rw [first] at other
      cases other
      rfl

end Cursor

end Prompt.Template
