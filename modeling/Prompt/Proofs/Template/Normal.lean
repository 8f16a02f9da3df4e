import Mathlib.Data.List.DropRight
import Prompt.Proofs.Template.Cleaning

/-!
# Normal text

Normalizing cuts each longest run of line breaks to two (`shortened_iff`) and then takes the blank characters
away at both ends (`trimmed_iff`). Trimming cuts out a part of the text, so that no longer run comes back: what
is left is `Normal`, and normal texts are those that normalizing leaves as they are (`normalize_eq_self_iff`).
Every compiled text is one, and where a template has no tag the compiled text is the template in normal form.
-/

namespace Prompt.Template

/-! ### Runs of line breaks -/

/-- The second text is the first with each longest run of line breaks cut to two, if it is longer. -/
inductive Shortened : List Char → List Char → Prop
  | nil : Shortened [] []
  | other {c : Char} {s t : List Char} (inked : c ≠ '\n') (behind : Shortened s t) :
      Shortened (c :: s) (c :: t)
  | run {s t : List Char} (n : Nat) (ends : s.head? ≠ some '\n') (behind : Shortened s t) :
      Shortened (List.replicate (n + 1) '\n' ++ s) (List.replicate (min (n + 1) 2) '\n' ++ t)

theorem limitBreaks_run (n seen : Nat) {s : List Char} (ends : s.head? ≠ some '\n') :
    limitBreaks seen (List.replicate n '\n' ++ s) =
      List.replicate (min n (2 - seen)) '\n' ++ limitBreaks 0 s := by
  induction n generalizing seen with
  | zero =>
      cases s with
      | nil => rfl
      | cons c s =>
          have inked : c ≠ '\n' := by simpa using ends
          simp [limitBreaks_of_ne inked]
  | succ n ih =>
      rw [List.replicate_succ, List.cons_append, limitBreaks, if_pos rfl, ih, ih]
      split
      · next few =>
          have more : min (n + 1) (2 - seen) = min n (2 - (seen + 1)) + 1 := by omega
          rw [more, List.replicate_succ, List.cons_append]
      · next many =>
          have none : min (n + 1) (2 - seen) = min n (2 - seen) := by omega
          rw [none]

theorem exists_run (s : List Char) :
    ∃ n rest, s = List.replicate n '\n' ++ rest ∧ rest.head? ≠ some '\n' := by
  induction s with
  | nil => exact ⟨0, [], rfl, nofun⟩
  | cons c s ih =>
      by_cases breaks : c = '\n'
      · obtain ⟨n, rest, rfl, ends⟩ := ih
        exact ⟨n + 1, rest, by rw [breaks, List.replicate_succ, List.cons_append], ends⟩
      · exact ⟨0, c :: s, rfl, by simpa using breaks⟩

theorem shortened_limitBreaks (s : List Char) : Shortened s (limitBreaks 0 s) := by
  -- A run is taken off as a whole, so the induction is on the length.
  induction size : s.length using Nat.strongRecOn generalizing s with
  | _ size ih =>
    subst size
    obtain ⟨n, rest, rfl, ends⟩ := exists_run s
    rw [limitBreaks_run n 0 ends]
    cases n with
    | succ n => exact .run n ends (ih rest.length (by simp) rest rfl)
    | zero =>
        cases rest with
        | nil => exact .nil
        | cons c rest =>
            have inked : c ≠ '\n' := by simpa using ends
            rw [limitBreaks_of_ne inked]
            exact .other inked (ih rest.length (by simp) rest rfl)

theorem shortened_iff {s t : List Char} : Shortened s t ↔ limitBreaks 0 s = t := by
  constructor
  · intro shortened
    induction shortened with
    | nil => rfl
    | other inked behind ih => rw [limitBreaks_of_ne inked, ih]
    | run n ends behind ih => rw [limitBreaks_run _ 0 ends, ih]
  · rintro rfl
    exact shortened_limitBreaks s

/-! ### Three line breaks in a row -/

def Tripled (s : List Char) : Prop := ['\n', '\n', '\n'] <:+: s

/-- A word does not reach across a character that it does not hold. -/
theorem infix_of_append_cons {p s t : List Char} {c : Char} (apart : c ∉ p) (inside : p <:+: s ++ c :: t) :
    p <:+: s ∨ p <:+: t := by
  have starts {q : List Char} (part : q ⊆ p) (first : q <+: c :: t) : q = [] := by
    cases q with
    | nil => rfl
    | cons a q =>
        cases (List.cons_prefix_cons.1 first).1
        exact absurd (part List.mem_cons_self) apart
  rcases List.infix_append_iff.1 inside with here | behind | ⟨q, r, rfl, ends, first⟩
  · exact .inl here
  · rcases List.infix_cons_iff.1 behind with first | behind
    · rw [starts (List.Subset.refl p) first]
      exact .inl List.nil_infix
    · exact .inr behind
  · rw [starts (List.subset_append_right q r) first, List.append_nil]
    exact .inl ends.isInfix

theorem run_append_break (n : Nat) (s : List Char) :
    List.replicate n '\n' ++ '\n' :: s = List.replicate (n + 1) '\n' ++ s := by
  rw [List.replicate_succ', List.append_assoc, List.singleton_append]

theorem not_tripled_run {n : Nat} (few : n ≤ 2) : ¬ Tripled (List.replicate n '\n') := by
  intro thrice
  have longer := thrice.length_le
  rw [List.length_replicate] at longer
  exact absurd (longer.trans few) (by simp)

theorem tripled_run {n : Nat} (many : 3 ≤ n) (s : List Char) : Tripled (List.replicate n '\n' ++ s) := by
  obtain ⟨more, rfl⟩ := Nat.exists_eq_add_of_le many
  refine ⟨[], List.replicate more '\n' ++ s, ?_⟩
  rw [List.replicate_add, List.append_assoc]
  rfl

/-- The breaks that were seen and kept stand in front of what is left. -/
theorem not_tripled_limitBreaks {seen : Nat} (few : seen ≤ 2) (s : List Char) :
    ¬ Tripled (List.replicate seen '\n' ++ limitBreaks seen s) := by
  induction s generalizing seen with
  | nil =>
      rw [limitBreaks, List.append_nil]
      exact not_tripled_run few
  | cons c s ih =>
      by_cases breaks : c = '\n'
      · subst breaks
        rw [limitBreaks, if_pos rfl]
        split
        · next fewer =>
            rw [run_append_break]
            exact ih fewer
        · exact ih few
      · rw [limitBreaks_of_ne breaks]
        intro thrice
        rcases infix_of_append_cons (by simpa using breaks) thrice with before | behind
        · exact not_tripled_run few before
        · exact ih (Nat.zero_le 2) behind

theorem limitBreaks_of_not_tripled {seen : Nat} {s : List Char}
    (limited : ¬ Tripled (List.replicate seen '\n' ++ s)) : limitBreaks seen s = s := by
  induction s generalizing seen with
  | nil => rfl
  | cons c s ih =>
      by_cases breaks : c = '\n'
      · subst breaks
        rw [run_append_break] at limited
        have few : seen < 2 := by
          by_contra many
          exact limited (tripled_run (by omega) s)
        rw [limitBreaks, if_pos rfl, if_pos few, ih limited]
      · rw [limitBreaks_of_ne breaks, ih fun thrice => limited ?_]
        exact thrice.trans (List.suffix_append_of_suffix (List.suffix_cons c s)).isInfix

theorem limitBreaks_eq_self_iff {s : List Char} : limitBreaks 0 s = s ↔ ¬ Tripled s := by
  constructor
  · intro same
    have limited := not_tripled_limitBreaks (Nat.zero_le 2) s
    rwa [same] at limited
  · exact @limitBreaks_of_not_tripled 0 s

/-! ### Blank ends -/

structure Inked (s : List Char) : Prop where
  first : ∀ c, s.head? = some c → Text.isBlank c = false
  last : ∀ c, s.getLast? = some c → Text.isBlank c = false

/-- The second text is the first without the blank characters at both ends. -/
structure Trimmed (s t : List Char) : Prop where
  inside : ∃ before after, s = before ++ t ++ after ∧ ∀ c ∈ before ++ after, Text.isBlank c = true
  inked : Inked t

theorem inked_trim (s : List Char) : Inked (Text.trim s) where
  first := by
    intro c head
    obtain ⟨rest, starts⟩ := List.head?_eq_some_iff.1 head
    have part : Text.trim s <+: Text.trimStart s := trimEnd_starts _
    rw [starts] at part
    obtain ⟨behind, whole⟩ := part
    have kept := List.head?_dropWhile_not Text.isBlank s
    rw [← Text.trimStart, ← whole] at kept
    exact kept
  last := by
    intro c last
    have filled : List.rdropWhile Text.isBlank (Text.trimStart s) ≠ [] := by
      intro empty
      rw [Text.trim, show Text.trimEnd _ = [] from empty] at last
      cases last
    have kept := List.rdropWhile_last_not Text.isBlank (Text.trimStart s) filled
    have same : List.getLast _ filled = c := List.getLast_eq_iff_getLast?_eq_some filled |>.2 last
    rw [same] at kept
    simpa using kept

theorem trimmed_trim (s : List Char) : Trimmed s (Text.trim s) where
  inside := by
    refine ⟨s.takeWhile Text.isBlank, (Text.trimStart s).rtakeWhile Text.isBlank, ?_, fun c member => ?_⟩
    · have ends : Text.trim s ++ (Text.trimStart s).rtakeWhile Text.isBlank = Text.trimStart s :=
        List.rdropWhile_append_rtakeWhile
      rw [List.append_assoc, ends]
      exact List.takeWhile_append_dropWhile.symm
    · rcases List.mem_append.1 member with front | back
      · exact List.mem_takeWhile_imp front
      · exact List.mem_rtakeWhile_imp back
  inked := inked_trim s

theorem Trimmed.trim_eq {s t : List Char} (trimmed : Trimmed s t) : Text.trim s = t := by
  obtain ⟨⟨before, after, rfl, blank⟩, first, last⟩ := trimmed
  have front : Text.trimStart before = [] :=
    List.dropWhile_eq_nil_iff.2 fun c member => blank c (List.mem_append_left _ member)
  have back : Text.trimEnd after = [] :=
    List.rdropWhile_eq_nil_iff.2 fun c member => blank c (List.mem_append_right _ member)
  cases t with
  | nil =>
      have empty : Text.trimStart (before ++ [] ++ after) = [] :=
        List.dropWhile_eq_nil_iff.2 (by simpa using blank)
      rw [Text.trim, empty]
      rfl
  | cons a rest =>
      obtain ⟨init, z, split⟩ : ∃ init z, a :: rest = init ++ [z] := by
        simpa using (List.eq_nil_or_concat (a :: rest)).resolve_left (List.cons_ne_nil a rest)
      have starts := trimStart_append (first a rfl) before (rest ++ after)
      have ends := trimEnd_append (last z (by rw [split, List.getLast?_concat])) init after
      rw [front, List.nil_append] at starts
      rw [back] at ends
      rw [Text.trim, List.append_assoc, List.cons_append, starts, ← List.cons_append, split,
        List.append_assoc, List.singleton_append, ends]

theorem trimmed_iff {s t : List Char} : Trimmed s t ↔ Text.trim s = t :=
  ⟨Trimmed.trim_eq, fun same => same ▸ trimmed_trim s⟩

/-! ### Normal form -/

structure Normal (s : List Char) : Prop where
  limited : ¬ Tripled s
  inked : Inked s

theorem normalize_iff {s t : List Char} :
    normalize s = t ↔ ∃ short, Shortened s short ∧ Trimmed short t := by
  simp only [shortened_iff, trimmed_iff, exists_eq_left', normalize]

theorem normal_normalize (s : List Char) : Normal (normalize s) where
  limited := fun thrice =>
    not_tripled_limitBreaks (Nat.zero_le 2) s (thrice.trans (trim_inside (limitBreaks 0 s)))
  inked := inked_trim _

theorem Normal.normalize_eq {s : List Char} (normal : Normal s) : normalize s = s := by
  have whole : Trimmed s s := ⟨⟨[], [], by simp, by simp⟩, normal.inked⟩
  rw [normalize, limitBreaks_eq_self_iff.2 normal.limited, whole.trim_eq]

theorem normalize_eq_self_iff {s : List Char} : normalize s = s ↔ Normal s :=
  ⟨fun same => same ▸ normal_normalize s, Normal.normalize_eq⟩

/-! ### Compiled texts -/

theorem normal_compile (template : String) (data : Json) : Normal (compile template data).toList := by
  rw [compile, String.toList_ofList]
  exact normal_normalize _

theorem expandFlat_of_not_hasTag {s : List Char} (free : ¬ HasTag s) (data : Json) : expandFlat data s = s := by
  have pieces := scan_of_not_hasTag free
  have kept (kind : BlockKind) (wanted : Bool) : keepWhen kind wanted data (scan s) = s := by
    rw [pieces, keepWhen, replaceBlocks_text, replaceBlocks_nil, List.append_nil]
  have repeated : repeatEach data (scan s) = s := by
    rw [pieces, repeatEach, replaceBlocks_text, replaceBlocks_nil, List.append_nil]
  simp only [expandFlat, kept, repeated]
  rw [pieces, interpolate, replaceTags_text, replaceTags_nil, List.append_nil]

theorem compile_of_not_hasTag {template : String} (free : ¬ HasTag template.toList) (data : Json) :
    (compile template data).toList = normalize template.toList := by
  have pieces := scan_of_not_hasTag free
  have expanded : expand data (scan template.toList) = template.toList := by
    rw [pieces, expand_eq, replaceBlocks_text, replaceBlocks_nil, List.append_nil,
      expandFlat_of_not_hasTag free]
  rw [compile, String.toList_ofList, compileChars, expanded, pieces, eraseTags_text]
  simp [eraseTags]

/-- Normalizing shortens the longest runs of line breaks and trims the ends, and what it makes is normal. So is
what is compiled, and where there is no tag compiling does nothing else. -/
theorem normalize_normal_form (s : List Char) :
    (∀ t, normalize s = t ↔ ∃ short, Shortened s short ∧ Trimmed short t) ∧
    ¬ Tripled (normalize s) ∧ normalize (normalize s) = normalize s ∧ (normalize s = s ↔ Normal s) ∧
    ∀ (template : String) (data : Json),
      normalize (compile template data).toList = (compile template data).toList ∧
      (¬ HasTag template.toList → (compile template data).toList = normalize template.toList) :=
  ⟨fun _ => normalize_iff, (normal_normalize s).limited, (normal_normalize s).normalize_eq,
    normalize_eq_self_iff, fun template data => ⟨(normal_compile template data).normalize_eq,
      fun free => compile_of_not_hasTag free data⟩⟩

def recital : String := "Plan \x7d\x7d\n\n\n\nRead \x7b\x7b aloud.\u3000\n"

/-- Braces that make no tag stay, two of the line breaks between them, and no blank character at the end. -/
theorem normalize_normal_form_recital :
    ¬ HasTag recital.toList ∧ compile recital .null = "Plan \x7d\x7d\n\nRead \x7b\x7b aloud." := by
  have free : ¬ HasTag recital.toList := firstTag?_eq_none_iff.1 (by rfl)
  have compiled := ((normalize_normal_form recital.toList).2.2.2.2 recital .null).2 free
  exact ⟨free, String.toList_inj.1 (compiled.trans (by decide +kernel))⟩

end Prompt.Template
