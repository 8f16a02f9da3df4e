import Prompt.Text.Measure

/-!
Splitting a template into text and tags. A tag is two opening braces, inner text and two closing
braces. From the left, the first closing pair after an opening pair ends a tag, and the innermost
opening pair before it begins that tag; scanning goes on behind the tag. `source_scan` says that
splitting loses nothing.
-/

namespace Prompt.Template

def openBrace : Char := '\x7b'

def closeBrace : Char := '\x7d'

inductive Piece where
  | text (chars : List Char)
  | tag (inner : List Char)
  deriving DecidableEq

def tagSource (inner : List Char) : List Char :=
  openBrace :: openBrace :: inner ++ [closeBrace, closeBrace]

def Piece.source : Piece → List Char
  | text chars => chars
  | tag inner => tagSource inner

def source (pieces : List Piece) : List Char := pieces.flatMap Piece.source

/-- What stands before and after the first place where `c` stands twice. -/
def breakFirst? (c : Char) : List Char → Option (List Char × List Char)
  | a :: b :: rest =>
    if a = c ∧ b = c then some ([], rest)
    else (breakFirst? c (b :: rest)).map fun p => (a :: p.1, p.2)
  | _ => none

/-- What stands before and after the last place where `c` stands twice. -/
def breakLast? (c : Char) : List Char → Option (List Char × List Char)
  | a :: b :: rest =>
    match breakLast? c (b :: rest) with
    | some p => some (a :: p.1, p.2)
    | none => if a = c ∧ b = c then some ([], rest) else none
  | _ => none

theorem eq_of_breakFirst? {c : Char} {s before after : List Char}
    (h : breakFirst? c s = some (before, after)) : s = before ++ c :: c :: after := by
  fun_induction breakFirst? c s generalizing before after with
  | case1 a b rest hc =>
      obtain ⟨rfl, rfl⟩ := hc
      simp only [Option.some.injEq, Prod.mk.injEq] at h
      simp [← h.1, ← h.2]
  | case2 a b rest hc ih =>
      obtain ⟨p, hp, heq⟩ := Option.map_eq_some_iff.1 h
      simp only [Prod.mk.injEq] at heq
      rw [← heq.1, ← heq.2, ih hp]
      rfl
  | case3 => simp at h

theorem eq_of_breakLast? {c : Char} {s before after : List Char}
    (h : breakLast? c s = some (before, after)) : s = before ++ c :: c :: after := by
  fun_induction breakLast? c s generalizing before after with
  | case1 a b rest p hp ih =>
      simp only [Option.some.injEq, Prod.mk.injEq] at h
      rw [← h.1, ← h.2, ih hp]
      rfl
  | case2 a b rest hp hc ih =>
      obtain ⟨rfl, rfl⟩ := hc
      simp only [Option.some.injEq, Prod.mk.injEq] at h
      simp [← h.1, ← h.2]
  | case3 => simp at h
  | case4 => simp at h

structure Found where
  before : List Char
  inner : List Char
  after : List Char

def firstTag? (s : List Char) : Option Found :=
  match breakFirst? openBrace s with
  | none => none
  | some (before, opened) =>
    match breakFirst? closeBrace opened with
    | none => none
    | some (body, after) =>
      match breakLast? openBrace (openBrace :: openBrace :: body) with
      | none => none
      | some (outer, inner) => some ⟨before ++ outer, inner, after⟩

theorem eq_of_firstTag? {s : List Char} {f : Found} (h : firstTag? s = some f) :
    s = f.before ++ tagSource f.inner ++ f.after := by
  unfold firstTag? at h
  split at h
  · simp at h
  · next before opened hopen =>
      split at h
      · simp at h
      · next body after hclose =>
          split at h
          · simp at h
          · next outer inner hlast =>
              obtain rfl := Option.some.inj h
              rw [eq_of_breakFirst? hopen, eq_of_breakFirst? hclose]
              have key := eq_of_breakLast? hlast
              have step : openBrace :: openBrace :: (body ++ closeBrace :: closeBrace :: after) =
                  (outer ++ openBrace :: openBrace :: inner) ++
                    closeBrace :: closeBrace :: after := by
                rw [← key]; rfl
              rw [step]
              simp [tagSource]

theorem length_after_lt {s : List Char} {f : Found} (h : firstTag? s = some f) :
    f.after.length < s.length := by
  have := congrArg List.length (eq_of_firstTag? h)
  simp only [tagSource, List.length_append, List.length_cons] at this
  omega

/-- The pieces of a template: text and tags in turn, with text at both ends. -/
def scan (s : List Char) : List Piece :=
  match _h : firstTag? s with
  | none => [.text s]
  | some f => .text f.before :: .tag f.inner :: scan f.after
termination_by s.length
decreasing_by exact length_after_lt _h

@[simp] theorem source_nil : source [] = [] := rfl

@[simp] theorem source_cons (p : Piece) (ps : List Piece) :
    source (p :: ps) = p.source ++ source ps := by simp [source]

@[simp] theorem source_append (ps qs : List Piece) :
    source (ps ++ qs) = source ps ++ source qs := by simp [source]

theorem source_scan (s : List Char) : source (scan s) = s := by
  fun_induction scan s with
  | case1 s h => simp [Piece.source]
  | case2 s f h ih =>
      have whole := eq_of_firstTag? h
      simp only [source_cons, ih, Piece.source]
      rw [← List.append_assoc]
      exact whole.symm

def replaceTags (f : List Char → Option (List Char)) (pieces : List Piece) : List Char :=
  pieces.flatMap fun
    | .text chars => chars
    | .tag inner => (f inner).getD (tagSource inner)

end Prompt.Template
