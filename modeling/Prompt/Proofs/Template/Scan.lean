import Mathlib.Data.List.Infix
import Prompt.Template.Block

/-!
# What a scan finds

A text has a tag when two opening braces stand somewhere before two closing ones; the first tag is found
exactly then (`firstTag?_eq_none_iff`). Inert text cannot begin a tag whatever follows, and a sealed tag
is found whatever is inside. A text that was put together from such pieces is cut into them again, but
for neighbouring texts, which grow together (`scan_source`).
-/

namespace Prompt.Template

/-! ### Two braces in a row -/

def Doubled (c : Char) (s : List Char) : Prop := [c, c] <:+: s

instance (c : Char) (s : List Char) : Decidable (Doubled c s) := inferInstanceAs (Decidable (_ <:+: _))

section Doubled
variable {c : Char} {s t : List Char}

theorem doubled_iff : Doubled c s ↔ ∃ before after, s = before ++ c :: c :: after := by
  constructor
  · rintro ⟨before, after, rfl⟩
    exact ⟨before, after, by simp⟩
  · rintro ⟨before, after, rfl⟩
    exact ⟨before, after, by simp⟩

@[simp] theorem not_doubled_nil : ¬ Doubled c [] := by simp [Doubled]

@[simp] theorem not_doubled_singleton (a : Char) : ¬ Doubled c [a] := by
  intro twice
  simpa using twice.length_le

@[simp] theorem doubled_cons_cons {a b : Char} :
    Doubled c (a :: b :: s) ↔ (a = c ∧ b = c) ∨ Doubled c (b :: s) := by
  rw [Doubled, List.infix_cons_iff]
  simp [Doubled, eq_comm]

theorem Doubled.mono (twice : Doubled c s) (inside : s <:+: t) : Doubled c t :=
  twice.trans inside

theorem Doubled.mem (twice : Doubled c s) : c ∈ s :=
  twice.subset List.mem_cons_self

theorem not_doubled_cons (free : c ∉ s) : ¬ Doubled c (c :: s) := by
  cases s with
  | nil => simp
  | cons a s =>
      rw [doubled_cons_cons, not_or]
      exact ⟨fun both => free (by simp [both.2]), fun twice => free twice.mem⟩

theorem not_doubled_concat (free : c ∉ s) : ¬ Doubled c (s ++ [c]) := by
  induction s with
  | nil => simp
  | cons a s ih =>
      rw [List.mem_cons, not_or] at free
      cases s with
      | nil => simpa [eq_comm] using free.1
      | cons b s =>
          rw [List.cons_append, List.cons_append, doubled_cons_cons, not_or]
          exact ⟨fun both => free.1 both.1.symm, ih free.2⟩

theorem breakFirst?_eq_none_iff : breakFirst? c s = none ↔ ¬ Doubled c s := by
  fun_induction breakFirst? c s with
  | case1 a b rest both => simp [both]
  | case2 a b rest other ih => simp [ih, other]
  | case3 s short =>
      cases s with
      | nil => simp
      | cons a s =>
          cases s with
          | nil => simp
          | cons b rest => exact absurd rfl (short a b rest)

theorem breakFirst?_eq_some_iff {before after : List Char} :
    breakFirst? c s = some (before, after) ↔
      s = before ++ c :: c :: after ∧ ¬ Doubled c (before ++ [c]) := by
  constructor
  · intro found
    refine ⟨eq_of_breakFirst? found, ?_⟩
    fun_induction breakFirst? c s generalizing before with
    | case1 a b rest both =>
        cases found
        simp
    | case2 a b rest other ih =>
        obtain ⟨p, found', same⟩ := Option.map_eq_some_iff.1 found
        cases same
        have whole := eq_of_breakFirst? found'
        cases split : p.1 with
        | nil =>
            rw [split] at whole
            cases whole
            simpa [eq_comm] using other
        | cons d before =>
            have free := ih found'
            rw [split] at whole free
            cases whole
            simpa [other] using free
    | case3 => cases found
  · rintro ⟨rfl, free⟩
    induction before with
    | nil => simp [breakFirst?]
    | cons a before ih =>
        cases before with
        | nil =>
            have other : a ≠ c := by simpa using free
            simp [breakFirst?, other]
        | cons b before =>
            simp only [List.cons_append, doubled_cons_cons, not_or] at free
            simp only [List.cons_append] at ih
            simp [breakFirst?, free.1, ih free.2]

theorem breakLast?_eq_none_iff : breakLast? c s = none ↔ ¬ Doubled c s := by
  fun_induction breakLast? c s with
  | case1 a b rest p found ih =>
      have twice : Doubled c (b :: rest) := by
        rw [doubled_iff]
        exact ⟨_, _, eq_of_breakLast? found⟩
      simp [twice]
  | case2 a b rest missing both ih => simp [both]
  | case3 a b rest missing other ih => simp [other, ih.1 missing]
  | case4 s short =>
      cases s with
      | nil => simp
      | cons a s =>
          cases s with
          | nil => simp
          | cons b rest => exact absurd rfl (short a b rest)

theorem breakLast?_eq_some {before after : List Char} (found : breakLast? c s = some (before, after)) :
    ¬ Doubled c (c :: after) := by
  fun_induction breakLast? c s generalizing before with
  | case1 a b rest p found' ih =>
      cases found
      exact ih found'
  | case2 a b rest missing both ih =>
      cases found
      obtain ⟨-, rfl⟩ := both
      exact breakLast?_eq_none_iff.1 missing
  | case3 => cases found
  | case4 => cases found

theorem breakLast?_pair {inner : List Char} (free : ¬ Doubled c (c :: inner)) :
    breakLast? c (c :: c :: inner) = some ([], inner) := by
  rw [breakLast?, breakLast?_eq_none_iff.2 free]
  simp

/-- The first place cannot lie behind another one. -/
theorem suffix_of_breakFirst? {before after first rest : List Char}
    (found : breakFirst? c s = some (first, rest)) (split : s = before ++ c :: c :: after) :
    after <:+ rest := by
  obtain ⟨whole, free⟩ := breakFirst?_eq_some_iff.1 found
  subst split
  rcases List.append_eq_append_iff.1 whole with ⟨more, rfl, behind⟩ | ⟨more, rfl, behind⟩
  · match more, behind with
    | [], behind => exact ⟨[], by simpa using behind⟩
    | [d], behind =>
        simp only [List.cons_append, List.nil_append, List.cons.injEq] at behind
        obtain ⟨rfl, -, rfl⟩ := behind
        exact absurd (doubled_iff.2 ⟨before, [], by simp⟩) free
    | d :: e :: more, behind =>
        simp only [List.cons_append, List.cons.injEq] at behind
        obtain ⟨rfl, rfl, rfl⟩ := behind
        exact absurd (doubled_iff.2 ⟨before, more ++ [c], by simp⟩) free
  · match more, behind with
    | [], behind => exact ⟨[], by simpa using behind.symm⟩
    | [d], behind =>
        simp only [List.cons_append, List.nil_append, List.cons.injEq] at behind
        obtain ⟨-, -, rfl⟩ := behind
        exact ⟨[c], rfl⟩
    | d :: e :: more, behind =>
        simp only [List.cons_append, List.cons.injEq] at behind
        obtain ⟨-, -, rfl⟩ := behind
        exact ⟨more ++ [c, c], by simp⟩

end Doubled

/-! ### Tags -/

/-- Two opening braces stand somewhere before two closing ones. -/
def HasTag (s : List Char) : Prop := ∃ before inner after, s = before ++ tagSource inner ++ after

theorem hasTag_iff {s : List Char} : HasTag s ↔
    ∃ before opened, breakFirst? openBrace s = some (before, opened) ∧ Doubled closeBrace opened := by
  constructor
  · rintro ⟨before, inner, after, whole⟩
    have split : s = before ++ openBrace :: openBrace :: (inner ++ closeBrace :: closeBrace :: after) := by
      simp [whole, tagSource]
    cases found : breakFirst? openBrace s with
    | none => exact absurd (doubled_iff.2 ⟨_, _, split⟩) (breakFirst?_eq_none_iff.1 found)
    | some p =>
        refine ⟨p.1, p.2, rfl, Doubled.mono ?_ (suffix_of_breakFirst? found split).isInfix⟩
        exact doubled_iff.2 ⟨inner, after, rfl⟩
  · rintro ⟨before, opened, found, closed⟩
    obtain ⟨inner, after, rfl⟩ := doubled_iff.1 closed
    exact ⟨before, inner, after, by simp [eq_of_breakFirst? found, tagSource]⟩

theorem HasTag.doubled_open {s : List Char} (tag : HasTag s) : Doubled openBrace s := by
  obtain ⟨before, inner, after, rfl⟩ := tag
  exact doubled_iff.2 ⟨before, inner ++ closeBrace :: closeBrace :: after, by simp [tagSource]⟩

theorem HasTag.mono {s t : List Char} (tag : HasTag s) (inside : s <:+: t) : HasTag t := by
  obtain ⟨before, inner, after, rfl⟩ := tag
  obtain ⟨front, back, rfl⟩ := inside
  exact ⟨front ++ before, inner, after ++ back, by simp⟩

theorem firstTag?_eq_some {s : List Char} {f : Found} (found : firstTag? s = some f) :
    ∃ before opened body outer, breakFirst? openBrace s = some (before, opened) ∧
      breakFirst? closeBrace opened = some (body, f.after) ∧
      breakLast? openBrace (openBrace :: openBrace :: body) = some (outer, f.inner) ∧
      f.before = before ++ outer := by
  unfold firstTag? at found
  split at found
  · cases found
  · next before opened opens =>
      split at found
      · cases found
      · next body after closes =>
          split at found
          · cases found
          · next outer inner last =>
              cases found
              exact ⟨before, opened, body, outer, opens, closes, last, rfl⟩

theorem firstTag?_eq_none_iff {s : List Char} : firstTag? s = none ↔ ¬ HasTag s := by
  rw [hasTag_iff]
  constructor
  · rintro missing ⟨before, opened, opens, closed⟩
    cases closes : breakFirst? closeBrace opened with
    | none => exact breakFirst?_eq_none_iff.1 closes closed
    | some q =>
        cases last : breakLast? openBrace (openBrace :: openBrace :: q.1) with
        | none => simpa using breakLast?_eq_none_iff.1 last
        | some r => simp [firstTag?, opens, closes, last] at missing
  · intro missing
    cases found : firstTag? s with
    | none => rfl
    | some f =>
        obtain ⟨before, opened, body, outer, opens, closes, -⟩ := firstTag?_eq_some found
        exact absurd ⟨before, opened, opens, doubled_iff.2 ⟨_, _, eq_of_breakFirst? closes⟩⟩ missing

/-- No tag ends before the first one that is found. -/
theorem suffix_of_firstTag? {s front inner back : List Char} {f : Found} (found : firstTag? s = some f)
    (split : s = front ++ tagSource inner ++ back) : back <:+ f.after := by
  obtain ⟨before, opened, body, outer, opens, closes, -⟩ := firstTag?_eq_some found
  have whole : s = front ++ openBrace :: openBrace :: (inner ++ closeBrace :: closeBrace :: back) := by
    simp [split, tagSource]
  obtain ⟨more, ends⟩ := suffix_of_breakFirst? opens whole
  rw [← List.append_assoc] at ends
  exact suffix_of_breakFirst? closes ends.symm

/-- No tag is complete before the first one that is found. -/
theorem not_hasTag_before {s : List Char} {f : Found} (found : firstTag? s = some f) :
    ¬ HasTag f.before := by
  rintro ⟨front, inner, back, split⟩
  have whole : s = front ++ tagSource inner ++ (back ++ tagSource f.inner ++ f.after) := by
    rw [eq_of_firstTag? found, split]
    simp
  have late := suffix_of_firstTag? found whole
  have size := late.length_le
  simp only [tagSource, List.length_append, List.length_cons] at size
  omega

/-! ### Pieces that a scan finds again -/

/-- No tag begins inside the text, whatever follows it. -/
def Inert (s : List Char) : Prop := ¬ Doubled openBrace (s ++ [openBrace])

instance (s : List Char) : Decidable (Inert s) := inferInstanceAs (Decidable (¬ _))

/-- The braces around the inner text are those that the scan takes for it. -/
structure Sealed (inner : List Char) : Prop where
  opening : ¬ Doubled openBrace (openBrace :: inner)
  closing : ¬ Doubled closeBrace (inner ++ [closeBrace])

theorem sealed_of_firstTag? {s : List Char} {f : Found} (found : firstTag? s = some f) :
    Sealed f.inner := by
  obtain ⟨before, opened, body, outer, -, closes, last, -⟩ := firstTag?_eq_some found
  refine ⟨breakLast?_eq_some last, fun twice => ?_⟩
  have whole := eq_of_breakLast? last
  have inner_ends : f.inner <:+ openBrace :: openBrace :: body :=
    ⟨outer ++ [openBrace, openBrace], by simp [whole]⟩
  have body_ends : body <:+ openBrace :: openBrace :: body := ⟨[openBrace, openBrace], rfl⟩
  have shorter : f.inner.length ≤ body.length := by
    have sizes := congrArg List.length whole
    simp only [List.length_cons, List.length_append] at sizes
    omega
  obtain ⟨front, rfl⟩ := List.suffix_of_suffix_length_le inner_ends body_ends shorter
  refine (breakFirst?_eq_some_iff.1 closes).2 (twice.mono ?_)
  exact List.IsSuffix.isInfix ⟨front, by simp⟩

theorem firstTag?_of_inert {before inner : List Char} (after : List Char) (inert : Inert before)
    (shut : Sealed inner) :
    firstTag? (before ++ (tagSource inner ++ after)) = some ⟨before, inner, after⟩ := by
  have opens : breakFirst? openBrace (before ++ (tagSource inner ++ after)) =
      some (before, inner ++ closeBrace :: closeBrace :: after) :=
    breakFirst?_eq_some_iff.2 ⟨by simp [tagSource], inert⟩
  have closes : breakFirst? closeBrace (inner ++ closeBrace :: closeBrace :: after) =
      some (inner, after) := breakFirst?_eq_some_iff.2 ⟨rfl, shut.closing⟩
  simp [firstTag?, opens, closes, breakLast?_pair shut.opening]

theorem Inert.not_doubled {s : List Char} (inert : Inert s) : ¬ Doubled openBrace s := fun twice =>
  inert (twice.mono (List.infix_append' [] s _))

theorem Inert.append {s t : List Char} (left : Inert s) (right : Inert t) : Inert (s ++ t) := by
  induction s with
  | nil => exact right
  | cons a s ih =>
      have rest : Inert s := fun twice => left (twice.mono (List.suffix_cons a _).isInfix)
      cases s with
      | nil =>
          cases t with
          | nil => exact left
          | cons b t =>
              have other : a ≠ openBrace := by simpa [Inert] using left
              simpa [Inert, other] using right
      | cons b s =>
          simp only [Inert, List.cons_append, doubled_cons_cons, not_or] at left ih ⊢
          exact ⟨left.1, ih rest⟩

@[simp] theorem inert_nil : Inert [] := by simp [Inert]

theorem scan_of_firstTag? {s : List Char} {f : Found} (found : firstTag? s = some f) :
    scan s = .text f.before :: .tag f.inner :: scan f.after := by
  rw [scan]
  split
  · next missing =>
      rw [found] at missing
      cases missing
  · next other =>
      rw [found] at other
      cases other
      rfl

theorem scan_of_not_hasTag {s : List Char} (free : ¬ HasTag s) : scan s = [.text s] := by
  rw [scan]
  split
  · rfl
  · next found =>
      rw [firstTag?_eq_none_iff.2 free] at found
      cases found

/-- What follows the first tag has no part in finding it. -/
theorem firstTag?_of_found {s : List Char} {f : Found} (found : firstTag? s = some f)
    (after : List Char) :
    firstTag? (f.before ++ (tagSource f.inner ++ after)) = some ⟨f.before, f.inner, after⟩ := by
  obtain ⟨before, opened, body, outer, opens, closes, last, split⟩ := firstTag?_eq_some found
  have whole : f.before ++ (tagSource f.inner ++ after) =
      before ++ openBrace :: openBrace :: (body ++ closeBrace :: closeBrace :: after) := by
    have inside := congrArg (fun t => before ++ (t ++ closeBrace :: closeBrace :: after))
      (eq_of_breakLast? last)
    simpa [split, tagSource] using inside.symm
  have opens' := breakFirst?_eq_some_iff.2 ⟨whole, (breakFirst?_eq_some_iff.1 opens).2⟩
  have closes' := breakFirst?_eq_some_iff.2
    ⟨rfl (a := body ++ closeBrace :: closeBrace :: after), (breakFirst?_eq_some_iff.1 closes).2⟩
  simp only [firstTag?, opens', closes', last, ← split]

/-- What stands behind a tag of a scan is scanned as it stands there. -/
theorem scan_after {s inner : List Char} {front after : List Piece}
    (split : scan s = front ++ .tag inner :: after) : scan (source after) = after := by
  fun_induction scan s generalizing front with
  | case1 s missing =>
      have listed : Piece.tag inner ∈ [Piece.text s] := split ▸ List.mem_append_right _ List.mem_cons_self
      simp at listed
  | case2 s f found ih =>
      rcases front with _ | ⟨p, _ | ⟨q, front⟩⟩
      · cases split
      · cases split
        rw [source_scan]
      · rw [List.cons_append, List.cons_append, List.cons.injEq, List.cons.injEq] at split
        exact ih split.2.2

/-- What stands before a tag of a scan is scanned as it stands there. -/
theorem scan_before {s inner : List Char} {front after : List Piece}
    (split : scan s = front ++ .tag inner :: after) : scan (source front) = front := by
  fun_induction scan s generalizing front with
  | case1 s missing =>
      have listed : Piece.tag inner ∈ [Piece.text s] := split ▸ List.mem_append_right _ List.mem_cons_self
      simp at listed
  | case2 s f found ih =>
      rcases front with _ | ⟨p, _ | ⟨q, front⟩⟩
      · cases split
      · cases split
        rw [source_cons, source_nil, List.append_nil]
        exact scan_of_not_hasTag (not_hasTag_before found)
      · rw [List.cons_append, List.cons_append, List.cons.injEq, List.cons.injEq] at split
        obtain ⟨rfl, rfl, behind⟩ := split
        rw [source_cons, source_cons, Piece.source, Piece.source,
          scan_of_firstTag? (firstTag?_of_found found _), ih behind]

theorem sealed_of_mem_scan {s inner : List Char} (member : .tag inner ∈ scan s) : Sealed inner := by
  fun_induction scan s with
  | case1 s missing => simp at member
  | case2 s f found ih =>
      simp only [List.mem_cons, reduceCtorEq, Piece.tag.injEq, false_or] at member
      rcases member with rfl | member
      · exact sealed_of_firstTag? found
      · exact ih member

theorem inner_inside_of_mem_scan {s inner : List Char} (member : .tag inner ∈ scan s) :
    inner <:+: s := by
  obtain ⟨before, after, split⟩ := List.append_of_mem member
  rw [← source_scan s, split]
  exact ⟨source before ++ [openBrace, openBrace], [closeBrace, closeBrace] ++ source after,
    by simp [Piece.source, tagSource]⟩

/-- A scan finds the piece again, whatever stands around it. -/
def Piece.Tidy : Piece → Prop
  | text chars => Inert chars
  | tag inner => Sealed inner

def TidyPieces (ps : List Piece) : Prop := ∀ p ∈ ps, p.Tidy

@[simp] theorem tidyPieces_nil : TidyPieces [] := by simp [TidyPieces]

@[simp] theorem tidyPieces_cons {p : Piece} {ps : List Piece} :
    TidyPieces (p :: ps) ↔ p.Tidy ∧ TidyPieces ps := List.forall_mem_cons

@[simp] theorem tidyPieces_append {ps qs : List Piece} :
    TidyPieces (ps ++ qs) ↔ TidyPieces ps ∧ TidyPieces qs := List.forall_mem_append

theorem tidy_scan {s : List Char} (inert : ∀ chars, .text chars ∈ scan s → Inert chars) :
    TidyPieces (scan s) := by
  intro p member
  cases p with
  | text chars => exact inert chars member
  | tag inner => exact sealed_of_mem_scan member

/-- The pieces as a scan cuts them, `before` in front: one text before each tag and one at the end. -/
def fuse (before : List Char) : List Piece → List Piece
  | [] => [.text before]
  | .text chars :: rest => fuse (before ++ chars) rest
  | .tag inner :: rest => .text before :: .tag inner :: fuse [] rest

theorem scan_source_fuse {ps : List Piece} (before : List Char) (inert : Inert before)
    (tidy : TidyPieces ps) : scan (before ++ source ps) = fuse before ps := by
  induction ps generalizing before with
  | nil =>
      rw [source_nil, List.append_nil, fuse]
      exact scan_of_not_hasTag fun tag => inert.not_doubled tag.doubled_open
  | cons p rest ih =>
      obtain ⟨here, behind⟩ := tidyPieces_cons.1 tidy
      cases p with
      | text chars =>
          rw [source_cons, Piece.source, ← List.append_assoc]
          exact ih (before ++ chars) (inert.append here) behind
      | tag inner =>
          rw [source_cons, Piece.source, scan_of_firstTag? (firstTag?_of_inert _ inert here), fuse]
          exact congrArg (_ :: _ :: ·) (ih [] inert_nil behind)

theorem scan_source {ps : List Piece} (tidy : TidyPieces ps) : scan (source ps) = fuse [] ps :=
  scan_source_fuse [] inert_nil tidy

@[simp] theorem source_fuse (before : List Char) (ps : List Piece) :
    source (fuse before ps) = before ++ source ps := by
  fun_induction fuse before ps with
  | case1 before => simp [Piece.source]
  | case2 before chars rest ih => simp [ih, Piece.source]
  | case3 before inner rest ih => simp [ih, Piece.source]

theorem splitAtClose?_fuse (name before : List Char) (ps : List Piece) :
    splitAtClose? name (fuse before ps) =
      (splitAtClose? name ps).map fun q => (fuse before q.1, fuse [] q.2) := by
  fun_induction fuse before ps with
  | case1 before => simp [splitAtClose?]
  | case2 before chars rest ih =>
      simp only [splitAtClose?, ih, reduceCtorEq, if_false, Option.map_map]
      rfl
  | case3 before inner rest ih =>
      by_cases closes : inner = '/' :: name
      · simp [splitAtClose?, closes, fuse]
      · simp only [splitAtClose?, ih, reduceCtorEq, if_false, Piece.tag.injEq, closes,
          Option.map_map]
        rfl

end Prompt.Template
