import Mathlib
import Prompt.Proofs.Template.Markup
import Prompt.Template.Check

/-!
# What the strict checks accept

The grammar of templates, said without the checker: how a directive is written (`Spelled`), and how
blocks nest (`Nested`). The checks find nothing in a template exactly when its tags are written so, its
blocks nest so, and no text between its tags has an opening pair of braces (`check_eq_nil_iff`).
-/

namespace Prompt.Template

/-! ### Directives -/

/-- A directive and the inner text of a tag that asks for it. -/
inductive Spelled : List Char → Directive → Prop where
  | close (name : List Char) : Spelled ('/' :: name) (.close name)
  | keyed {kind : BlockKind} {keyword more : List Char} {blank : Char}
      (named : kind.keyword? = some keyword) (apart : Text.isBlank blank = true)
      (path : isVariable (Text.trim (blank :: more)) = true) :
      Spelled ('#' :: (keyword ++ blank :: more)) (.opens ⟨kind, Text.trim (blank :: more)⟩)
  | named {name : List Char} (words : isBlockName name = true) (free : isReserved name = false) :
      Spelled ('#' :: name) (.opens ⟨.within, name⟩)
  | value {inner : List Char} (path : isVariable (Text.trim inner) = true) :
      Spelled inner (.variable (Text.trim inner))

theorem not_isBlank_of_isWordChar {c : Char} (word : isWordChar c = true) :
    Text.isBlank c = false := by
  have small : 0x30 ≤ c.toNat ∧ c.toNat ≤ 0x7A := by
    simp only [isWordChar, Char.isAlphanum, Char.isAlpha, Char.isUpper, Char.isLower, Char.isDigit,
      Bool.or_eq_true, Bool.and_eq_true, decide_eq_true_eq, ge_iff_le, UInt32.le_iff_toNat_le] at word
    rcases word with ((upper | lower) | digit) | rfl
    · exact ⟨Nat.le_trans (by decide) upper.1, Nat.le_trans upper.2 (by decide)⟩
    · exact ⟨Nat.le_trans (by decide) lower.1, Nat.le_trans lower.2 (by decide)⟩
    · exact ⟨Nat.le_trans (by decide) digit.1, Nat.le_trans digit.2 (by decide)⟩
    · decide
  simp only [Text.isBlank, Bool.or_eq_false_iff, Bool.and_eq_false_iff, decide_eq_false_iff_not,
    beq_eq_false_iff_ne]
  omega

theorem not_isBlank_of_isBlockName {name : List Char} (words : isBlockName name = true) {c : Char}
    (member : c ∈ name) : Text.isBlank c = false := by
  rcases mem_splitOnChar '.' member with rfl | ⟨word, split, inside⟩
  · decide
  · have spelled := List.all_eq_true.1 words word split
    simp only [Bool.and_eq_true, List.all_eq_true] at spelled
    exact not_isBlank_of_isWordChar (spelled.2 c inside)

theorem pathAfter?_eq_some_iff {keyword rest path : List Char} :
    pathAfter? keyword rest = some path ↔ ∃ blank more, rest = keyword ++ blank :: more ∧
      Text.isBlank blank = true ∧ Text.trim (blank :: more) = path ∧ isVariable path = true := by
  unfold pathAfter?
  constructor
  · intro found
    split at found
    · next blank more after =>
        simp only [Option.ite_none_right_eq_some, Option.some.injEq, Bool.and_eq_true] at found
        obtain ⟨⟨apart, named⟩, rfl⟩ := found
        exact ⟨blank, more, Text.after?_eq_some_iff.1 after, apart, rfl, named⟩
    · cases found
  · rintro ⟨blank, more, rfl, apart, rfl, named⟩
    simp [Text.after?_eq_some_iff.2 rfl, apart, named]

/-- No keyword begins another one. -/
theorem opening?_of_pathAfter? {kind : BlockKind} {keyword rest path : List Char}
    (named : kind.keyword? = some keyword) (led : pathAfter? keyword rest = some path) :
    opening? rest = some ⟨kind, path⟩ := by
  obtain ⟨blank, more, rfl, -⟩ := pathAfter?_eq_some_iff.1 led
  cases kind <;> cases named
  · simp only [opening?, List.findSome?_cons, BlockKind.keyword?, Option.bind_some, led, Option.map_some]
  · have other : pathAfter? ['i', 'f'] (['u', 'n', 'l', 'e', 's', 's'] ++ blank :: more) = none := rfl
    simp only [opening?, List.findSome?_cons, BlockKind.keyword?, Option.bind_some, other, led,
      Option.map_none, Option.map_some]
  · have first : pathAfter? ['i', 'f'] (['e', 'a', 'c', 'h'] ++ blank :: more) = none := rfl
    have second : pathAfter? ['u', 'n', 'l', 'e', 's', 's'] (['e', 'a', 'c', 'h'] ++ blank :: more) =
      none := rfl
    simp only [opening?, List.findSome?_cons, BlockKind.keyword?, Option.bind_some, first, second, led,
      Option.map_none, Option.map_some]

theorem opening?_of_isBlockName {name : List Char} (words : isBlockName name = true)
    (free : isReserved name = false) : opening? name = some ⟨.within, name⟩ := by
  have unkeyed (keyword : List Char) : pathAfter? keyword name = none := by
    refine Option.eq_none_iff_forall_ne_some.2 fun path led => ?_
    obtain ⟨blank, more, rfl, apart, -⟩ := pathAfter?_eq_some_iff.1 led
    simp [not_isBlank_of_isBlockName words (List.mem_append_right _ List.mem_cons_self)] at apart
  simp [opening?, BlockKind.keyword?, unkeyed, words, free]

theorem spelled_of_opening? {rest : List Char} {o : Opening} (found : opening? rest = some o) :
    Spelled ('#' :: rest) (.opens o) := by
  simp only [opening?] at found
  split at found
  · next keyed =>
      cases found
      obtain ⟨kind, -, answers⟩ := List.exists_of_findSome?_eq_some keyed
      obtain ⟨path, led, rfl⟩ := Option.map_eq_some_iff.1 answers
      obtain ⟨keyword, named, after⟩ := Option.bind_eq_some_iff.1 led
      obtain ⟨blank, more, rfl, apart, rfl, valued⟩ := pathAfter?_eq_some_iff.1 after
      exact .keyed named apart valued
  · simp only [Option.ite_none_right_eq_some, Bool.and_eq_true, Bool.not_eq_true',
      Option.some.injEq] at found
    obtain ⟨⟨words, free⟩, rfl⟩ := found
    exact .named words free

/-- What begins with a sign that no path has names no value. -/
theorem not_isVariable_trim {sign : Char} {rest : List Char} (inked : Text.isBlank sign = false)
    (foreign : (isWordChar sign || sign = '.' || sign = '@') = false) :
    isVariable (Text.trim (sign :: rest)) = false := by
  have kept : Text.trim (sign :: rest) = sign :: Text.trimEnd rest := by
    have start := trimStart_append inked [] rest
    have ends := trimEnd_append inked [] rest
    rw [List.nil_append] at start ends
    rw [Text.trim, start]
    exact ends
  rw [kept, isVariable, List.all_cons, foreign]
  simp

/-- A tag asks for at most one directive, and for the one that it is read as. -/
theorem spelled_iff {inner : List Char} {d : Directive} :
    Spelled inner d ↔ Directive.of inner = d ∧ d ≠ .malformed := by
  constructor
  · rintro (name | ⟨named, apart, path⟩ | ⟨words, free⟩ | path)
    · exact ⟨rfl, nofun⟩
    · have opens := opening?_of_pathAfter? named (pathAfter?_eq_some_iff.2 ⟨_, _, rfl, apart, rfl, path⟩)
      exact ⟨by simp only [Directive.of, opens], nofun⟩
    · exact ⟨by simp only [Directive.of, opening?_of_isBlockName words free], nofun⟩
    · refine ⟨?_, nofun⟩
      unfold Directive.of
      split
      · rw [not_isVariable_trim (by decide) (by decide)] at path
        cases path
      · rw [not_isVariable_trim (by decide) (by decide)] at path
        cases path
      · rw [if_pos path]
  · rintro ⟨rfl, meant⟩
    cases reads : Directive.of inner with
    | close name => exact Directive.of_eq_close reads ▸ .close name
    | opens o =>
        obtain ⟨rest, rfl, found⟩ := Directive.of_eq_opens reads
        exact spelled_of_opening? found
    | «variable» path =>
        obtain ⟨rfl, named⟩ := Directive.of_eq_variable reads
        exact .value named
    | malformed => exact absurd reads meant

theorem spelled_opens_iff {inner : List Char} {o : Opening} :
    Spelled inner (.opens o) ↔ Directive.of inner = .opens o :=
  spelled_iff.trans (and_iff_left nofun)

/-! ### Blocks -/

inductive Bracket where
  | opens (name : List Char)
  | closes (name : List Char)

def Directive.bracket? : Directive → Option Bracket
  | .opens o => some (.opens o.closeName)
  | .close name => some (.closes name)
  | .variable _ | .malformed => none

/-- Openings and closings in pairs of one name that do not cross, and no pair inside another one of its
name. The names of the pairs around them are `outer`. -/
inductive Nested : List (List Char) → List Bracket → Prop where
  | nil (outer : List (List Char)) : Nested outer []
  | block {outer : List (List Char)} {name : List Char} {inside rest : List Bracket}
      (apart : name ∉ outer) (body : Nested (name :: outer) inside) (after : Nested outer rest) :
      Nested outer (.opens name :: (inside ++ .closes name :: rest))

/-- The rest of a template, behind the openings of these names, the last one first. -/
def Closing : List (List Char) → List Bracket → Prop
  | [], bs => Nested [] bs
  | name :: outer, bs => ∃ inside rest, bs = inside ++ .closes name :: rest ∧
      Nested (name :: outer) inside ∧ Closing outer rest

section Closing
variable {names : List (List Char)} {name : List Char} {bs : List Bracket}

theorem closing_nil_iff : Closing names [] ↔ names = [] := by
  cases names with
  | nil => simp [Closing, Nested.nil]
  | cons name outer => simp [Closing]

theorem closing_opens_iff :
    Closing names (.opens name :: bs) ↔ name ∉ names ∧ Closing (name :: names) bs := by
  constructor
  · intro closing
    cases names with
    | nil =>
        cases closing with
        | block apart body after => exact ⟨apart, _, _, rfl, body, after⟩
    | cons last outer =>
        obtain ⟨inside, rest, split, nested, closing⟩ := closing
        cases nested with
        | nil => cases split
        | block apart body after =>
            cases split
            exact ⟨apart, _, _, by simp, body, _, _, rfl, after, closing⟩
  · rintro ⟨apart, body, rest, rfl, nested, closing⟩
    cases names with
    | nil => exact .block apart nested closing
    | cons last outer =>
        obtain ⟨after, rest, rfl, nested', closing⟩ := closing
        exact ⟨_, rest, by simp, .block apart nested nested', closing⟩

theorem closing_closes_iff :
    Closing names (.closes name :: bs) ↔ ∃ outer, names = name :: outer ∧ Closing outer bs := by
  constructor
  · intro closing
    cases names with
    | nil => cases closing
    | cons last outer =>
        obtain ⟨inside, rest, split, nested, closing⟩ := closing
        cases nested with
        | nil =>
            cases split
            exact ⟨outer, rfl, closing⟩
        | block => cases split
  · rintro ⟨outer, rfl, closing⟩
    exact ⟨[], bs, rfl, .nil _, closing⟩

end Closing

/-! ### The checker -/

def tags (ps : List Piece) : List (List Char) :=
  ps.filterMap fun
    | .text _ => none
    | .tag inner => some inner

def brackets (ps : List Piece) : List Bracket :=
  (tags ps).filterMap fun inner => (Directive.of inner).bracket?

@[simp] theorem tags_text (chars : List Char) (ps : List Piece) :
    tags (.text chars :: ps) = tags ps := rfl

@[simp] theorem tags_tag (inner : List Char) (ps : List Piece) :
    tags (.tag inner :: ps) = inner :: tags ps := rfl

@[simp] theorem brackets_text (chars : List Char) (ps : List Piece) :
    brackets (.text chars :: ps) = brackets ps := rfl

@[simp] theorem brackets_tag (inner : List Char) (ps : List Piece) :
    brackets (.tag inner :: ps) = (Directive.of inner).bracket?.toList ++ brackets ps := by
  cases found : (Directive.of inner).bracket? <;> simp [brackets, found]

/-- A closing tag is right exactly when the last block that was opened has its name. -/
theorem closeBlock_eq_nil_iff {stack : List Frame} {name : List Char} {offset : Nat} :
    (closeBlock stack name offset).1 = [] ↔
      ∃ f outside, stack = f :: outside ∧ f.name = name := by
  cases stack with
  | nil => simp [closeBlock]
  | cons f outside =>
      by_cases own : f.name = name
      · simp [closeBlock, own]
      · simp only [closeBlock, List.takeWhile_cons, List.dropWhile_cons, bne_iff_ne, ne_eq, own,
          not_false_eq_true, if_true]
        split <;> simp [own]

theorem closeBlock_of_name {f : Frame} {outside : List Frame} {name : List Char} {offset : Nat}
    (own : f.name = name) : closeBlock (f :: outside) name offset = ([], outside) := by
  simp [closeBlock, own]

theorem strayOpening_eq_nil_iff {offset : Nat} {text : List Char} :
    strayOpening offset text = [] ↔ ¬ Doubled openBrace text := by
  rw [← breakFirst?_eq_none_iff, strayOpening]
  cases breakFirst? openBrace text <;> simp

section Step
variable {sample : Option Json} {stack : List Frame} {inner : List Char} {offset : Nat}

theorem checkTag_eq_nil_iff : (checkTag sample stack inner offset).1 = [] ↔
    match Directive.of inner with
    | .close name => ∃ f outside, stack = f :: outside ∧ f.name = name
    | .opens o => o.closeName ∉ stack.map Frame.name ∧ checkPath sample stack o.path offset = []
    | .variable path => checkPath sample stack path offset = []
    | .malformed => False := by
  unfold checkTag
  cases Directive.of inner with
  | close name => exact closeBlock_eq_nil_iff
  | opens o => simp
  | «variable» path => exact Iff.rfl
  | malformed => simp

theorem stack_checkTag : (checkTag sample stack inner offset).2 =
    match Directive.of inner with
    | .close name => (closeBlock stack name offset).2
    | .opens o => ⟨o, offset⟩ :: stack
    | .variable _ | .malformed => stack := by
  unfold checkTag
  cases Directive.of inner <;> rfl

end Step

theorem checkFrom_eq_nil_iff {stack : List Frame} {offset : Nat} {ps : List Piece} :
    checkFrom none stack offset ps = [] ↔
      (∀ chars, .text chars ∈ ps → ¬ Doubled openBrace chars) ∧
      (∀ inner ∈ tags ps, Directive.of inner ≠ .malformed) ∧
      Closing (stack.map Frame.name) (brackets ps) := by
  induction ps generalizing stack offset with
  | nil => simp [checkFrom, tags, brackets, closing_nil_iff]
  | cons p rest ih =>
      cases p with
      | text chars =>
          rw [checkFrom, List.append_eq_nil_iff, strayOpening_eq_nil_iff, ih]
          simp [or_imp, forall_and, and_assoc]
      | tag inner =>
          have texts : (∀ chars, .text chars ∈ .tag inner :: rest → ¬ Doubled openBrace chars) ↔
              ∀ chars, .text chars ∈ rest → ¬ Doubled openBrace chars := by simp
          rw [checkFrom, List.append_eq_nil_iff, ih, checkTag_eq_nil_iff, stack_checkTag, texts, tags_tag,
            List.forall_mem_cons, brackets_tag]
          cases Directive.of inner with
          | close name =>
              simp only [Directive.bracket?, Option.toList_some, List.singleton_append,
                closing_closes_iff]
              constructor
              · rintro ⟨⟨f, outside, rfl, own⟩, free, spelled, closing⟩
                rw [closeBlock_of_name own] at closing
                exact ⟨free, ⟨nofun, spelled⟩, _, by rw [List.map_cons, own], closing⟩
              · rintro ⟨free, ⟨-, spelled⟩, outer, names, closing⟩
                obtain ⟨f, outside, rfl, own, rfl⟩ := List.map_eq_cons_iff.1 names
                rw [closeBlock_of_name own]
                exact ⟨⟨f, outside, rfl, own⟩, free, spelled, closing⟩
          | opens o =>
              simp only [Directive.bracket?, Option.toList_some, List.singleton_append,
                closing_opens_iff]
              constructor
              · rintro ⟨⟨apart, -⟩, free, spelled, closing⟩
                exact ⟨free, ⟨nofun, spelled⟩, apart, closing⟩
              · rintro ⟨free, ⟨-, spelled⟩, apart, closing⟩
                exact ⟨⟨apart, rfl⟩, free, spelled, closing⟩
          | «variable» path => simp [Directive.bracket?, checkPath]
          | malformed => simp

theorem forall₂_spelled_iff {inners : List (List Char)} {ds : List Directive} :
    List.Forall₂ Spelled inners ds ↔
      (∀ inner ∈ inners, Directive.of inner ≠ .malformed) ∧ inners.map Directive.of = ds := by
  induction inners generalizing ds with
  | nil => simp [List.forall₂_nil_left_iff, eq_comm]
  | cons inner inners ih =>
      cases ds with
      | nil => simp [List.forall₂_nil_right_iff]
      | cons d ds =>
          rw [List.forall₂_cons, ih, spelled_iff, List.forall_mem_cons, List.map_cons, List.cons.injEq]
          constructor
          · rintro ⟨⟨rfl, meant⟩, spelled, rfl⟩
            exact ⟨⟨meant, spelled⟩, rfl, rfl⟩
          · rintro ⟨⟨meant, spelled⟩, rfl, rfl⟩
            exact ⟨⟨rfl, meant⟩, spelled, rfl⟩

/-- The checks find nothing exactly in the templates of the grammar. -/
theorem check_eq_nil_iff (template : String) :
    check template none = [] ↔
      (∀ chars, .text chars ∈ scan template.toList → ¬ Doubled openBrace chars) ∧
      ∃ ds, List.Forall₂ Spelled (tags (scan template.toList)) ds ∧
        Nested [] (ds.filterMap Directive.bracket?) := by
  rw [check, checkFrom_eq_nil_iff]
  simp only [forall₂_spelled_iff]
  constructor
  · rintro ⟨free, spelled, nested⟩
    refine ⟨free, _, ⟨spelled, rfl⟩, ?_⟩
    rw [List.filterMap_map]
    exact nested
  · rintro ⟨free, _, ⟨spelled, rfl⟩, nested⟩
    rw [List.filterMap_map] at nested
    exact ⟨free, spelled, nested⟩

end Prompt.Template
