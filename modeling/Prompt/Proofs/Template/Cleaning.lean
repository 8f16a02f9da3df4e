import Prompt.Proofs.Template.Passes

/-!
# What cleaning leaves

Cleaning takes out the tags that it finds and does not look at what is left, so that the text on the two
sides of a tag may make a new one: a tag in a compiled text always lies around the place of one that was
taken out (`compile_hasTag`, `compile_stray`). Normalizing blank space has no part in it.
-/

namespace Prompt.Template

/-! ### Tags across a seam -/

section Seam
variable {s t : List Char}

theorem HasTag.of_append_left (tag : HasTag (s ++ t)) (opens : openBrace ∉ s) : HasTag t := by
  obtain ⟨before, inner, after, whole⟩ := tag
  rw [List.append_assoc] at whole
  rcases List.append_eq_append_iff.1 whole with ⟨more, rfl, behind⟩ | ⟨more, rfl, behind⟩
  · exact ⟨more, inner, after, by rw [behind, List.append_assoc]⟩
  · cases more with
    | nil => exact ⟨[], inner, after, by simpa using behind.symm⟩
    | cons c more =>
        simp only [tagSource, List.cons_append, List.cons.injEq] at behind
        rw [← behind.1] at opens
        exact absurd (List.mem_append_right _ List.mem_cons_self) opens

theorem HasTag.of_append_right (tag : HasTag (s ++ t)) (closes : closeBrace ∉ t) : HasTag s := by
  obtain ⟨before, inner, after, whole⟩ := tag
  have split : s ++ t =
      (before ++ openBrace :: openBrace :: inner ++ [closeBrace]) ++ closeBrace :: after := by
    simp [whole, tagSource]
  rcases List.append_eq_append_iff.1 split with ⟨more, -, rfl⟩ | ⟨more, rfl, behind⟩
  · exact absurd (List.mem_append_right _ List.mem_cons_self) closes
  · cases more with
    | nil =>
        rw [List.nil_append] at behind
        exact absurd (behind ▸ List.mem_cons_self) closes
    | cons c more =>
        cases behind
        exact ⟨before, inner, more, by simp [tagSource]⟩

end Seam

/-- The texts on both sides of some tag have the braces that a tag begins and ends with. -/
def Seamed (ps : List Piece) : Prop :=
  ∃ before inner after, ps = before ++ .tag inner :: after ∧
    openBrace ∈ eraseTags before ∧ closeBrace ∈ eraseTags after

theorem Seamed.cons {ps : List Piece} (seamed : Seamed ps) (p : Piece) : Seamed (p :: ps) := by
  obtain ⟨before, inner, after, rfl, opens, closes⟩ := seamed
  refine ⟨p :: before, inner, after, rfl, ?_, closes⟩
  rw [eraseTags, replaceTags, List.flatMap_cons]
  exact List.mem_append_right _ opens

theorem seamed_of_hasTag {s : List Char} (tag : HasTag (eraseTags (scan s))) : Seamed (scan s) := by
  fun_induction scan s with
  | case1 s missing =>
      refine absurd tag (firstTag?_eq_none_iff.1 ?_)
      simpa [eraseTags] using missing
  | case2 s f found ih =>
      rw [eraseTags_text, eraseTags_tag] at tag
      by_cases behind : HasTag (eraseTags (scan f.after))
      · exact ((ih behind).cons _).cons _
      · refine ⟨[.text f.before], f.inner, scan f.after, rfl, ?_, ?_⟩
        · rw [eraseTags_text]
          by_contra free
          exact behind (tag.of_append_left fun opens => free (List.mem_append_left _ opens))
        · by_contra free
          exact not_hasTag_before found (tag.of_append_right free)

/-! ### Blank space -/

theorem breakFirst?_cons {a c : Char} {s : List Char} (apart : a = c → s.head? ≠ some c) :
    breakFirst? c (a :: s) = (breakFirst? c s).map fun p => (a :: p.1, p.2) := by
  cases s with
  | nil => rfl
  | cons b s => rw [breakFirst?, if_neg fun both => apart both.1 (by simp [both.2])]

theorem limitBreaks_of_ne {c : Char} (inked : c ≠ '\n') (seen : Nat) (s : List Char) :
    limitBreaks seen (c :: s) = c :: limitBreaks 0 s := if_neg inked

theorem head?_limitBreaks_zero (s : List Char) : (limitBreaks 0 s).head? = s.head? := by
  cases s with
  | nil => rfl
  | cons c s =>
      by_cases breaks : c = '\n'
      · simp [limitBreaks, breaks]
      · simp [limitBreaks_of_ne breaks]

/-- Of the line breaks behind a character at least one stays, so that what was apart stays apart. -/
theorem breakFirst?_limitBreaks {c : Char} (inked : c ≠ '\n') (seen : Nat) (s : List Char) :
    breakFirst? c (limitBreaks seen s) =
      (breakFirst? c s).map fun p => (limitBreaks seen p.1, limitBreaks 0 p.2) := by
  induction s generalizing seen with
  | nil => rfl
  | cons a s ih =>
      by_cases breaks : a = '\n'
      · subst breaks
        rw [breakFirst?_cons fun same => absurd same.symm inked, Option.map_map, limitBreaks, if_pos rfl]
        split
        · next few =>
            rw [breakFirst?_cons fun same => absurd same.symm inked, ih, Option.map_map]
            refine Option.map_congr fun p _ => ?_
            simp [limitBreaks, few]
        · next many =>
            rw [ih]
            refine Option.map_congr fun p _ => ?_
            simp [limitBreaks, many]
      · rw [limitBreaks_of_ne breaks]
        by_cases twice : a = c ∧ s.head? = some c
        · obtain ⟨rfl, next⟩ := twice
          obtain ⟨rest, rfl⟩ := List.head?_eq_some_iff.1 next
          rw [limitBreaks_of_ne breaks]
          simp [breakFirst?, limitBreaks]
        · rw [not_and] at twice
          rw [breakFirst?_cons twice, breakFirst?_cons (head?_limitBreaks_zero s ▸ twice), ih,
            Option.map_map, Option.map_map]
          refine Option.map_congr fun p _ => ?_
          simp [limitBreaks_of_ne breaks]

theorem doubled_limitBreaks {c : Char} (inked : c ≠ '\n') {seen : Nat} {s : List Char} :
    Doubled c (limitBreaks seen s) ↔ Doubled c s := by
  rw [← not_iff_not, ← breakFirst?_eq_none_iff, ← breakFirst?_eq_none_iff,
    breakFirst?_limitBreaks inked, Option.map_eq_none_iff]

theorem hasTag_limitBreaks {seen : Nat} {s : List Char} :
    HasTag (limitBreaks seen s) ↔ HasTag s := by
  rw [hasTag_iff, hasTag_iff, breakFirst?_limitBreaks (by decide)]
  cases breakFirst? openBrace s with
  | none => simp
  | some p =>
      obtain ⟨before, opened⟩ := p
      simp [doubled_limitBreaks (show closeBrace ≠ '\n' by decide)]

theorem hasTag_trim {s : List Char} : HasTag (Text.trim s) ↔ HasTag s := by
  constructor
  · exact fun tag => tag.mono (trim_inside s)
  · rintro ⟨before, inner, after, rfl⟩
    have whole : before ++ tagSource inner ++ after =
        before ++ openBrace :: (openBrace :: inner ++ [closeBrace] ++ closeBrace :: after) := by
      simp [tagSource]
    rw [whole, Text.trim, trimStart_append (by decide), ← List.cons_append, ← List.append_assoc,
      trimEnd_append (by decide)]
    exact ⟨Text.trimStart before, inner, Text.trimEnd after, by simp [tagSource]⟩

theorem hasTag_normalize {s : List Char} : HasTag (normalize s) ↔ HasTag s :=
  hasTag_trim.trans hasTag_limitBreaks

theorem doubled_of_normalize {c : Char} (inked : c ≠ '\n') {s : List Char}
    (twice : Doubled c (normalize s)) : Doubled c s :=
  (doubled_limitBreaks inked).1 (twice.mono (trim_inside _))

/-! ### Compiled texts -/

theorem inert_eraseTags {ps : List Piece} (tidy : TidyPieces ps) : Inert (eraseTags ps) := by
  induction ps with
  | nil => exact inert_nil
  | cons p rest ih =>
      obtain ⟨here, behind⟩ := tidyPieces_cons.1 tidy
      cases p with
      | text chars =>
          rw [eraseTags_text]
          exact Inert.append here (ih behind)
      | tag inner =>
          rw [eraseTags_tag]
          exact ih behind

/-- A tag is left exactly when what remains of the expanded text around the tags that are taken out makes
one, and then it reaches across the place of one of them. Nothing like it happens as long as neither the
text of the template nor a value that is put in begins a tag: then no two opening braces are left. -/
theorem compile_hasTag (template : String) (data : Json) :
    (HasTag (compile template data).toList ↔
      HasTag (eraseTags (scan (expand data (scan template.toList))))) ∧
    (HasTag (compile template data).toList → Seamed (scan (expand data (scan template.toList)))) ∧
    ((∀ chars, .text chars ∈ scan template.toList → Inert chars) →
      (∀ chars ∈ inserted data (scan template.toList), Inert chars) →
      ¬ Doubled openBrace (compile template data).toList) := by
  have left : HasTag (compile template data).toList ↔
      HasTag (eraseTags (scan (expand data (scan template.toList)))) := by
    rw [compile, String.toList_ofList, compileChars, hasTag_normalize]
  refine ⟨left, fun tag => seamed_of_hasTag (left.1 tag), fun own inert twice => ?_⟩
  have tidy := tidy_scan own
  have pieces := compileChars_source tidy inert
  rw [source_scan] at pieces
  rw [compile, String.toList_ofList, pieces] at twice
  exact (inert_eraseTags (tidy_expandPieces tidy inert)).not_doubled
    (doubled_of_normalize (by decide) twice)

def letter : String := "Dear \x7b\x7bname\x7d\x7d\x7b\x7bno name\x7d\x7d,"

def addressee : Json := .obj [("name", .str "Ada \x7d\x7d")]

theorem compile_letter :
    (∀ chars, .text chars ∈ scan letter.toList → Inert chars) ∧
    (∀ chars ∈ inserted addressee (scan letter.toList), Inert chars) ∧
    compile letter addressee = "Dear Ada \x7d\x7d," ∧
    ¬ Doubled openBrace (compile letter addressee).toList := by
  have pieces : scan letter.toList = [.text "Dear ".toList, .tag "name".toList, .text [],
      .tag "no name".toList, .text ",".toList] := by decide +kernel
  have own : ∀ chars, .text chars ∈ scan letter.toList → Inert chars := by
    intro chars member
    have listed : chars ∈ ["Dear ".toList, [], ",".toList] := by simpa [pieces] using member
    exact (by decide : ∀ chars ∈ ["Dear ".toList, [], ",".toList], Inert chars) chars listed
  have values : inserted addressee (scan letter.toList) = ["Ada \x7d\x7d".toList] := by
    decide +kernel
  have inert : ∀ chars ∈ inserted addressee (scan letter.toList), Inert chars := by
    rw [values]
    decide
  exact ⟨own, inert, by decide +kernel, (compile_hasTag letter addressee).2.2 own inert⟩

/-- The braces on the two sides of a tag that asks for nothing. -/
theorem compile_stray : compile "\x7b\x7b\x7b!\x7d\x7d\x7bb\x7d\x7d" (.obj []) = "\x7b\x7bb\x7d\x7d" ∧
    HasTag (compile "\x7b\x7b\x7b!\x7d\x7d\x7bb\x7d\x7d" (.obj [])).toList := by
  have left : compile "\x7b\x7b\x7b!\x7d\x7d\x7bb\x7d\x7d" (.obj []) = "\x7b\x7bb\x7d\x7d" := by
    decide +kernel
  refine ⟨left, ?_⟩
  rw [left]
  exact ⟨[], "b".toList, [], by decide⟩

end Prompt.Template
