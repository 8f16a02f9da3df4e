import Prompt.Proofs.Template.Plain

/-!
# Templates as trees

A tree of plain text, variables and blocks, the template that it prints, and what it means over data.
-/

namespace Prompt.Template

open BlockKind

/-! ### What tags are made of -/

theorem mem_dropWhile_or {p : Char → Bool} {c : Char} {s : List Char} (member : c ∈ s) :
    c ∈ s.dropWhile p ∨ p c = true := by
  induction s with
  | nil => cases member
  | cons a s ih =>
      by_cases drops : p a = true
      · rw [List.dropWhile_cons_of_pos drops]
        rcases List.mem_cons.1 member with rfl | member
        · exact .inr drops
        · exact ih member
      · rw [List.dropWhile_cons_of_neg drops]
        exact .inl member

theorem mem_trim_or_isBlank {c : Char} {s : List Char} (member : c ∈ s) :
    c ∈ Text.trim s ∨ Text.isBlank c = true := by
  rcases mem_dropWhile_or (p := Text.isBlank) member with member | blank
  · rcases mem_dropWhile_or (p := Text.isBlank) (List.mem_reverse.2 member) with member | blank
    · exact .inl (List.mem_reverse.2 member)
    · exact .inr blank
  · exact .inr blank

theorem trimEnd_starts (s : List Char) : Text.trimEnd s <+: s :=
  List.reverse_suffix.1 (by simpa [Text.trimEnd] using List.dropWhile_suffix _)

theorem trim_inside (s : List Char) : Text.trim s <:+: s :=
  (trimEnd_starts _).isInfix.trans (List.dropWhile_suffix Text.isBlank).isInfix

theorem trimStart_append {c : Char} (inked : Text.isBlank c = false) (before after : List Char) :
    Text.trimStart (before ++ c :: after) = Text.trimStart before ++ c :: after := by
  rw [Text.trimStart, List.dropWhile_append, List.dropWhile_cons_of_neg (by simp [inked])]
  split
  · next blank => simp [Text.trimStart, List.isEmpty_iff.1 blank]
  · rfl

theorem trimEnd_append {c : Char} (inked : Text.isBlank c = false) (before after : List Char) :
    Text.trimEnd (before ++ c :: after) = before ++ c :: Text.trimEnd after := by
  have turned := trimStart_append inked after.reverse before.reverse
  simp only [Text.trimStart] at turned
  simp [Text.trimEnd, turned]

theorem plain_of_trim {s : List Char} (plain : Plain (Text.trim s)) : Plain s := by
  constructor <;> intro member
  all_goals
    rcases mem_trim_or_isBlank member with inside | blank
  · exact plain.1 inside
  · exact absurd blank (by decide)
  · exact plain.2 inside
  · exact absurd blank (by decide)

theorem plain_of_all {p : Char → Bool} {s : List Char} (all : ∀ c ∈ s, p c = true)
    (opening : p openBrace = false) (closing : p closeBrace = false) : Plain s := by
  constructor <;> intro member
  · simpa [opening] using all _ member
  · simpa [closing] using all _ member

theorem plain_of_isVariable {s : List Char} (named : isVariable s = true) : Plain s := by
  simp only [isVariable, Bool.and_eq_true, List.all_eq_true] at named
  exact plain_of_all named.2 (by decide) (by decide)

theorem mem_splitOnChar (sep : Char) {c : Char} {s : List Char} (member : c ∈ s) :
    c = sep ∨ ∃ word ∈ Text.splitOnChar sep s, c ∈ word := by
  fun_induction Text.splitOnChar sep s with
  | case1 => cases member
  | case2 rest ih =>
      rcases List.mem_cons.1 member with rfl | member
      · exact .inl rfl
      · rcases ih member with same | ⟨word, split, inside⟩
        · exact .inl same
        · exact .inr ⟨word, List.mem_cons_of_mem _ split, inside⟩
  | case3 a rest other missing ih =>
      rcases List.mem_cons.1 member with rfl | member
      · exact .inr ⟨[c], by simp, by simp⟩
      · rcases ih member with same | ⟨word, split, inside⟩
        · exact .inl same
        · rw [missing] at split
          cases split
  | case4 a rest other piece pieces found ih =>
      rcases List.mem_cons.1 member with rfl | member
      · exact .inr ⟨c :: piece, by simp, by simp⟩
      · rcases ih member with same | ⟨word, split, inside⟩
        · exact .inl same
        · rw [found] at split
          rcases List.mem_cons.1 split with rfl | split
          · exact .inr ⟨a :: word, by simp, List.mem_cons_of_mem _ inside⟩
          · exact .inr ⟨word, List.mem_cons_of_mem _ split, inside⟩

theorem plain_of_isBlockName {s : List Char} (named : isBlockName s = true) : Plain s := by
  refine plain_of_all (p := fun c => c = '.' || isWordChar c) ?_ (by decide) (by decide)
  intro c member
  rcases mem_splitOnChar '.' member with rfl | ⟨word, split, inside⟩
  · simp
  · have spelled := List.all_eq_true.1 named word split
    simp only [Bool.and_eq_true, List.all_eq_true] at spelled
    simp [spelled.2 c inside]

theorem pathAfter?_eq_some {keyword rest path : List Char}
    (found : pathAfter? keyword rest = some path) :
    ∃ more, rest = keyword ++ more ∧ path = Text.trim more ∧ isVariable path = true := by
  unfold pathAfter? at found
  split at found
  · next c more after =>
      simp only [Option.ite_none_right_eq_some, Option.some.injEq, Bool.and_eq_true] at found
      obtain ⟨⟨_, named⟩, rfl⟩ := found
      exact ⟨c :: more, Text.after?_eq_some_iff.1 after, rfl, named⟩
  · cases found

theorem plain_of_opening? {rest : List Char} {o : Opening} (found : opening? rest = some o) :
    Plain rest ∧ Plain o.closeName := by
  simp only [opening?] at found
  split at found
  · next keyed =>
      cases found
      obtain ⟨kind, listed, answers⟩ := List.exists_of_findSome?_eq_some keyed
      obtain ⟨path, led, rfl⟩ := Option.map_eq_some_iff.1 answers
      obtain ⟨keyword, named, after⟩ := Option.bind_eq_some_iff.1 led
      obtain ⟨more, rfl, rfl, valued⟩ := pathAfter?_eq_some after
      have plain : Plain keyword := by
        cases kind <;> cases named <;> decide
      refine ⟨plain_append.2 ⟨plain, plain_of_trim (plain_of_isVariable valued)⟩, ?_⟩
      simpa [Opening.closeName, named] using plain
  · split at found
    · next named =>
        cases found
        have plain := plain_of_isBlockName (Bool.and_eq_true_iff.1 named).1
        exact ⟨plain, plain⟩
    · cases found

theorem Directive.of_eq_variable {inner path : List Char}
    (reads : Directive.of inner = .variable path) :
    path = Text.trim inner ∧ isVariable path = true := by
  unfold Directive.of at reads
  split at reads
  · cases reads
  · split at reads <;> cases reads
  · split at reads
    · next named =>
        cases reads
        exact ⟨rfl, named⟩
    · cases reads

theorem Directive.of_eq_opens {inner : List Char} {o : Opening}
    (reads : Directive.of inner = .opens o) :
    ∃ rest, inner = '#' :: rest ∧ Template.opening? rest = some o := by
  unfold Directive.of at reads
  split at reads
  · cases reads
  · next rest =>
      split at reads
      · next found =>
          cases reads
          exact ⟨rest, rfl, found⟩
      · cases reads
  · split at reads <;> cases reads

theorem Directive.of_eq_close {inner name : List Char}
    (reads : Directive.of inner = .close name) : inner = '/' :: name := by
  unfold Directive.of at reads
  split at reads
  · cases reads
    rfl
  · split at reads <;> cases reads
  · split at reads <;> cases reads

/-! ### Trees -/

structure PlainText where
  chars : List Char
  plain : Plain chars

structure ValueTag where
  inner : List Char
  path : List Char
  reads : Directive.of inner = .variable path

structure BlockTag where
  inner : List Char
  opening : Opening
  reads : Directive.of inner = .opens opening

/-- A stretch of a template; `rest` is what follows. -/
inductive Markup where
  | done
  | text (words : PlainText) (rest : Markup)
  | value (tag : ValueTag) (rest : Markup)
  | block (tag : BlockTag) (body rest : Markup)

namespace BlockTag

def kind (tag : BlockTag) : BlockKind := tag.opening.kind

def path (tag : BlockTag) : List Char := tag.opening.path

def closeName (tag : BlockTag) : List Char := tag.opening.closeName

def close (tag : BlockTag) : Piece := .tag ('/' :: tag.closeName)

end BlockTag

namespace Markup

def pieces : Markup → List Piece
  | done => []
  | text words rest => .text words.chars :: rest.pieces
  | value tag rest => .tag tag.inner :: rest.pieces
  | block tag body rest => .tag tag.inner :: (body.pieces ++ tag.close :: rest.pieces)

def print (m : Markup) : List Char := source m.pieces

def closeNames : Markup → List (List Char)
  | done => []
  | text _ rest => rest.closeNames
  | value _ rest => rest.closeNames
  | block tag body rest => tag.closeName :: (body.closeNames ++ rest.closeNames)

/-- No block stands inside another one of its close name. -/
def Distinct : Markup → Prop
  | done => True
  | text _ rest => rest.Distinct
  | value _ rest => rest.Distinct
  | block tag body rest =>
    tag.closeName ∉ body.closeNames ∧ body.Distinct ∧ rest.Distinct

end Markup

/-! ### Meaning -/

structure Binding where
  item : Json
  index : Nat

/-- What a loop binds: `@index`, `this`, and the fields of `this`. -/
def Binding.value? (binding : Binding) (path : List Char) : Option (List Char) :=
  if path = ['@', 'i', 'n', 'd', 'e', 'x'] then some (toString binding.index).toList
  else if path = ['t', 'h', 'i', 's'] then some binding.item.display
  else (Text.after? ['t', 'h', 'i', 's', '.'] path).map fun field =>
    Json.display? (binding.item.resolve? field)

def bindingsOf : Option Json → List Binding
  | some (.arr items) => items.zipIdx.map fun entry => ⟨entry.1, entry.2⟩
  | _ => []

def scopesOf (scope : Json) : Option Json → List Json
  | some (.arr items) => items.map (mergeScope scope)
  | some (.obj fields) => if fields.isEmpty then [] else [mergeScope scope (.obj fields)]
  | _ => []

/-- A value that counts as true without being a list or an object. -/
def isTrueScalar (value : Option Json) : Bool :=
  value.any fun j => j.isTruthy && !j.isArray && !j.isObject

def valueText (scope : Json) (loop : Option Binding) (path : List Char) : List Char :=
  (loop.bind fun binding => binding.value? path).getD (Json.display? (scope.resolve? path))

namespace Markup

/-- The meaning of a tree. Paths of blocks are looked up in the scope, also inside a loop; a scoped
block leaves the loop. -/
def eval (scope : Json) (loop : Option Binding) : Markup → List Char
  | done => []
  | text words rest => words.chars ++ rest.eval scope loop
  | value tag rest => valueText scope loop tag.path ++ rest.eval scope loop
  | block tag body rest =>
    let value := scope.resolve? tag.path
    (match tag.kind with
      | within => (scopesOf scope value).flatMap fun inner => body.eval inner none
      | whenTrue => if Json.isTruthy? value then body.eval scope loop else []
      | whenFalse => if Json.isTruthy? value then [] else body.eval scope loop
      | forEach => ['\n'].intercalate
          ((bindingsOf value).map fun binding => body.eval scope (some binding))) ++
      rest.eval scope loop

/-- The values that are printed outside scoped blocks are plain. -/
def Printable (scope : Json) (loop : Option Binding) : Markup → Prop
  | done => True
  | text _ rest => rest.Printable scope loop
  | value tag rest => Plain (valueText scope loop tag.path) ∧ rest.Printable scope loop
  | block tag body rest =>
    let value := scope.resolve? tag.path
    (match tag.kind with
      | within => True
      | whenTrue => Json.isTruthy? value = true → body.Printable scope loop
      | whenFalse => Json.isTruthy? value = false → body.Printable scope loop
      | forEach => ∀ binding ∈ bindingsOf value, body.Printable scope (some binding)) ∧
      rest.Printable scope loop

/-- No scoped block stands over a true scalar, and all that is printed inside scoped blocks is plain.
Scoped blocks are expanded before a condition or a list is looked at, so those of a body that is
dropped later count. -/
def Expandable (scope : Json) : Markup → Prop
  | done => True
  | text _ rest => rest.Expandable scope
  | value _ rest => rest.Expandable scope
  | block tag body rest =>
    let value := scope.resolve? tag.path
    (if tag.kind = within then
      isTrueScalar value = false ∧
        ∀ inner ∈ scopesOf scope value, body.Expandable inner ∧ body.Printable inner none
    else body.Expandable scope) ∧ rest.Expandable scope

end Markup

/-! ### Tags of a tree -/

theorem ValueTag.path_eq (tag : ValueTag) : tag.path = Text.trim tag.inner :=
  (Directive.of_eq_variable tag.reads).1

theorem ValueTag.inner_ne_close (tag : ValueTag) (name : List Char) : tag.inner ≠ '/' :: name := by
  intro closes
  have reads := tag.reads
  rw [closes] at reads
  cases reads

theorem BlockTag.inner_ne_close (tag : BlockTag) (name : List Char) : tag.inner ≠ '/' :: name := by
  intro closes
  have reads := tag.reads
  rw [closes] at reads
  cases reads

theorem ValueTag.plain (tag : ValueTag) : Plain tag.inner := by
  obtain ⟨trimmed, named⟩ := Directive.of_eq_variable tag.reads
  exact plain_of_trim (trimmed ▸ plain_of_isVariable named)

theorem BlockTag.plain (tag : BlockTag) : Plain tag.inner := by
  obtain ⟨rest, spelled, found⟩ := Directive.of_eq_opens tag.reads
  rw [spelled]
  exact plain_append (s := ['#']).2 ⟨by decide, (plain_of_opening? found).1⟩

theorem BlockTag.plain_close (tag : BlockTag) : tag.close.Plain := by
  obtain ⟨rest, spelled, found⟩ := Directive.of_eq_opens tag.reads
  exact plain_append (s := ['/']).2 ⟨by decide, (plain_of_opening? found).2⟩

theorem Markup.plain_pieces (m : Markup) : PlainPieces m.pieces := by
  induction m with
  | done => exact plainPieces_nil
  | text words rest ih => exact plainPieces_cons.2 ⟨words.plain, ih⟩
  | value tag rest ih => exact plainPieces_cons.2 ⟨tag.plain, ih⟩
  | block tag body rest bodyIh restIh =>
      exact plainPieces_cons.2 ⟨tag.plain,
        plainPieces_append.2 ⟨bodyIh, plainPieces_cons.2 ⟨tag.plain_close, restIh⟩⟩⟩

theorem mem_intercalate {α : Type} {x : α} {sep : List α} {ls : List (List α)}
    (member : x ∈ sep.intercalate ls) : x ∈ sep ∨ ∃ l ∈ ls, x ∈ l := by
  induction ls with
  | nil => cases member
  | cons l rest ih =>
      cases rest with
      | nil =>
          rw [List.intercalate_singleton] at member
          exact .inr ⟨l, by simp, member⟩
      | cons next rest =>
          rw [List.intercalate_cons_cons, List.mem_append, List.mem_append] at member
          rcases member with (inside | between) | behind
          · exact .inr ⟨l, by simp, inside⟩
          · exact .inl between
          · rcases ih behind with between | ⟨other, listed, inside⟩
            · exact .inl between
            · exact .inr ⟨other, List.mem_cons_of_mem _ listed, inside⟩

theorem plain_intercalate {sep : List Char} {ss : List (List Char)} (plain : Plain sep)
    (parts : ∀ s ∈ ss, Plain s) : Plain (sep.intercalate ss) := by
  constructor <;> intro member
  all_goals
    rcases mem_intercalate member with between | ⟨s, listed, inside⟩
  · exact plain.1 between
  · exact (parts s listed).1 inside
  · exact plain.2 between
  · exact (parts s listed).2 inside

theorem Markup.plain_eval {m : Markup} {scope : Json} {loop : Option Binding}
    (expandable : m.Expandable scope) (printable : m.Printable scope loop) :
    Plain (m.eval scope loop) := by
  induction m generalizing scope loop with
  | done => exact plain_nil
  | text words rest ih => exact plain_append.2 ⟨words.plain, ih expandable printable⟩
  | value tag rest ih => exact plain_append.2 ⟨printable.1, ih expandable printable.2⟩
  | block tag body rest bodyIh restIh =>
      obtain ⟨expandBody, expandRest⟩ := expandable
      obtain ⟨printBody, printRest⟩ := printable
      refine plain_append.2 ⟨?_, restIh expandRest printRest⟩
      cases sort : tag.kind with
      | within =>
          simp only [sort, if_true] at expandBody
          refine plain_flatMap fun inner opened => ?_
          obtain ⟨expands, prints⟩ := expandBody.2 inner opened
          exact bodyIh expands prints
      | whenTrue =>
          simp only [sort, reduceCtorEq, if_false] at expandBody printBody
          change Plain (if _ then _ else _)
          split
          · next keeps => exact bodyIh expandBody (printBody keeps)
          · exact plain_nil
      | whenFalse =>
          simp only [sort, reduceCtorEq, if_false] at expandBody printBody
          change Plain (if _ then _ else _)
          split
          · exact plain_nil
          · next drops => exact bodyIh expandBody (printBody (Bool.eq_false_iff.2 drops))
      | forEach =>
          simp only [sort, reduceCtorEq, if_false] at expandBody printBody
          refine plain_intercalate (by decide) fun part listed => ?_
          obtain ⟨binding, bound, rfl⟩ := List.mem_map.1 listed
          exact bodyIh expandBody (printBody binding bound)

end Prompt.Template
