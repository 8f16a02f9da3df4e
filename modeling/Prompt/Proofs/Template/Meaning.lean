import Prompt.Proofs.Template.Markup

/-!
# What compiling means

The passes rewrite text and know nothing of the tree behind it. `residue n` is the text between them
in terms of the tree: the pieces that are left when the passes of rank below `n` are done. Each pass
takes one residue to the next, and the last one is the meaning of the tree.
-/

namespace Prompt.Template

open BlockKind

def BlockKind.rank : BlockKind → Nat
  | within => 0
  | whenTrue => 1
  | whenFalse => 2
  | forEach => 3

theorem BlockKind.rank_le (kind : BlockKind) : kind.rank ≤ 3 := by
  cases kind <;> decide

theorem BlockKind.eq_of_rank {a b : BlockKind} (same : a.rank = b.rank) : a = b := by
  cases a <;> cases b <;> first | rfl | cases same

def ValueTag.bound (tag : ValueTag) (loop : Option Binding) : Piece :=
  match loop.bind fun binding => binding.value? tag.path with
  | some chars => .text chars
  | none => .tag tag.inner

namespace Markup

/-- The pieces that are left when the blocks of rank below `n` are gone. -/
def residue (n : Nat) (scope : Json) (loop : Option Binding) : Markup → List Piece
  | done => []
  | text words rest => .text words.chars :: rest.residue n scope loop
  | value tag rest => tag.bound loop :: rest.residue n scope loop
  | block tag body rest =>
    let value := scope.resolve? tag.path
    (if tag.kind.rank < n then
      match tag.kind with
      | within => [.text ((scopesOf scope value).flatMap fun inner => body.eval inner none)]
      | whenTrue => if Json.isTruthy? value then body.residue n scope loop else []
      | whenFalse => if Json.isTruthy? value then [] else body.residue n scope loop
      | forEach => [.text ['\n']].intercalate
          ((bindingsOf value).map fun binding => body.residue n scope (some binding))
    else .tag tag.inner :: (body.residue n scope loop ++ [tag.close])) ++ rest.residue n scope loop

theorem residue_zero (m : Markup) (scope : Json) : m.residue 0 scope none = m.pieces := by
  induction m with
  | done => rfl
  | text words rest ih => rw [residue, ih, pieces]
  | value tag rest ih => rw [residue, ih, pieces]; rfl
  | block tag body rest bodyIh restIh => simp [residue, bodyIh, restIh, pieces]

theorem residue_block (n : Nat) (scope : Json) (loop : Option Binding) (tag : BlockTag)
    (body rest : Markup) :
    (block tag body rest).residue n scope loop =
      (block tag body done).residue n scope loop ++ rest.residue n scope loop := by
  simp [residue]

theorem residue_of_le {n : Nat} {tag : BlockTag} (waits : n ≤ tag.kind.rank) (scope : Json)
    (loop : Option Binding) (body : Markup) :
    (block tag body done).residue n scope loop =
      .tag tag.inner :: (body.residue n scope loop ++ [tag.close]) := by
  simp [residue, Nat.not_lt.2 waits]

theorem closeName_mem {m : Markup} (n : Nat) (scope : Json) (loop : Option Binding)
    {name : List Char} (left : .tag ('/' :: name) ∈ m.residue n scope loop) :
    name ∈ m.closeNames := by
  induction m generalizing loop with
  | done => cases left
  | text words rest ih => exact ih _ (by simpa [residue] using left)
  | value tag rest ih =>
      rcases List.mem_cons.1 left with here | behind
      · unfold ValueTag.bound at here
        split at here
        · cases here
        · exact absurd (Piece.tag.inj here).symm (tag.inner_ne_close name)
      · exact ih _ behind
  | block tag body rest bodyIh restIh =>
      rw [closeNames, List.mem_cons, List.mem_append]
      rcases List.mem_append.1 left with inside | behind
      · split at inside
        · split at inside
          · cases inside with
            | tail _ inside => cases inside
          · split at inside
            · exact .inr (.inl (bodyIh _ inside))
            · cases inside
          · split at inside
            · cases inside
            · exact .inr (.inl (bodyIh _ inside))
          · rcases mem_intercalate inside with between | ⟨part, listed, inside⟩
            · cases between with
              | tail _ between => cases between
            · obtain ⟨binding, bound, rfl⟩ := List.mem_map.1 listed
              exact .inr (.inl (bodyIh _ inside))
        · rcases List.mem_cons.1 inside with opens | inside
          · exact absurd (Piece.tag.inj opens).symm (tag.inner_ne_close name)
          · rcases List.mem_append.1 inside with inside | closes
            · exact .inr (.inl (bodyIh _ inside))
            · have same := List.mem_singleton.1 closes
              simp only [BlockTag.close, Piece.tag.injEq, List.cons.injEq, true_and] at same
              exact .inl same
      · exact .inr (.inr (restIh _ behind))

theorem closeName_eq (tag : BlockTag) {name : List Char} (named : tag.kind.keyword? = some name) :
    tag.closeName = name := by
  have keyword : tag.opening.kind.keyword? = some name := named
  rw [BlockTag.closeName, Opening.closeName, keyword]
  rfl

theorem residue_succ (kind : BlockKind) {name : List Char} (named : kind.keyword? = some name)
    {m : Markup} (absent : name ∉ m.closeNames) (scope : Json) (loop : Option Binding) :
    m.residue (kind.rank + 1) scope loop = m.residue kind.rank scope loop := by
  induction m generalizing loop with
  | done => rfl
  | text words rest ih => rw [residue, residue, ih absent]
  | value tag rest ih => rw [residue, residue, ih absent]
  | block tag body rest bodyIh restIh =>
      rw [closeNames, List.mem_cons, List.mem_append, not_or, not_or] at absent
      have other : tag.kind ≠ kind := fun own =>
        absent.1 (closeName_eq tag (own ▸ named)).symm
      have same : tag.kind.rank < kind.rank + 1 ↔ tag.kind.rank < kind.rank := by
        have apart : tag.kind.rank ≠ kind.rank := fun equal => other (eq_of_rank equal)
        omega
      simp only [residue, bodyIh absent.2.1, restIh absent.2.2, same]

/-! ### One pass -/

/-- The property holds of the blocks of a kind that stand in no other block of that kind. -/
def EveryBlock (kind : BlockKind) (P : BlockTag → Markup → Prop) : Markup → Prop
  | done => True
  | text _ rest => rest.EveryBlock kind P
  | value _ rest => rest.EveryBlock kind P
  | block tag body rest =>
    (if tag.kind = kind then P tag body else body.EveryBlock kind P) ∧ rest.EveryBlock kind P

/-- A block that its pass treats right: no block inside takes its close tag, and what is rendered is
what the next residue has in its place. -/
structure Rendered (kind : BlockKind) (render : List Char → List Piece → List Char) (scope : Json)
    (tag : BlockTag) (body : Markup) : Prop where
  apart : tag.closeName ∉ body.closeNames
  same : render tag.path (body.residue kind.rank scope none) =
    source ((block tag body done).residue (kind.rank + 1) scope none)

end Markup

theorem BlockTag.opening?_eq (tag : BlockTag) (kind : BlockKind) :
    Directive.opening? kind tag.inner = if tag.kind = kind then some tag.opening else none := by
  rw [Directive.opening?, tag.reads]
  rfl

theorem ValueTag.opening?_eq (tag : ValueTag) (kind : BlockKind) :
    Directive.opening? kind tag.inner = none := by
  rw [Directive.opening?, tag.reads]

theorem splitAtClose?_append {name : List Char} {body : List Piece} (after : List Piece)
    (absent : .tag ('/' :: name) ∉ body) :
    splitAtClose? name (body ++ .tag ('/' :: name) :: after) = some (body, after) := by
  induction body with
  | nil => simp [splitAtClose?]
  | cons p body ih =>
      rw [List.mem_cons, not_or] at absent
      rw [List.cons_append, splitAtClose?, if_neg (Ne.symm absent.1), ih absent.2]
      rfl

namespace Markup

/-- A pass takes a residue to the next. What follows the tree does not matter, so that the law applies
inside of other blocks. -/
theorem replaceBlocks_residue (kind : BlockKind) {render : List Char → List Piece → List Char}
    {scope : Json} {m : Markup} (every : m.EveryBlock kind (Rendered kind render scope))
    (follow : List Piece) :
    replaceBlocks kind render (m.residue kind.rank scope none ++ follow) =
      source (m.residue (kind.rank + 1) scope none) ++ replaceBlocks kind render follow := by
  induction m generalizing follow with
  | done => simp [residue]
  | text words rest ih => simp [residue, Piece.source, ih every]
  | value tag rest ih =>
      change replaceBlocks kind render (.tag tag.inner :: (rest.residue _ scope none ++ follow)) =
        source (.tag tag.inner :: rest.residue _ scope none) ++ _
      rw [replaceBlocks_tag _ _ _ (tag.opening?_eq kind), ih every]
      simp [Piece.source]
  | block tag body rest bodyIh restIh =>
      obtain ⟨here, behind⟩ := every
      have opens := tag.opening?_eq kind
      rw [residue_block kind.rank, residue_block (kind.rank + 1), source_append, List.append_assoc,
        List.append_assoc, ← restIh behind follow]
      generalize rest.residue kind.rank scope none ++ follow = after
      by_cases own : tag.kind = kind
      · rw [if_pos own] at here opens
        -- The first tag that closes the block is its own.
        have closes := splitAtClose?_append after
          (fun left => here.apart (closeName_mem kind.rank scope none left))
        rw [residue_of_le (own ▸ Nat.le_refl _), ← here.same, List.cons_append, List.append_assoc]
        exact replaceBlocks_block _ _ opens closes
      · rw [if_neg own] at here opens
        have inside := bodyIh here
        rcases Nat.lt_or_ge tag.kind.rank kind.rank with earlier | later
        · -- Gone before this pass: what is left of the body may still hold blocks of the kind.
          have both := Nat.lt_succ_of_lt earlier
          simp only [residue, earlier, both, if_true, List.append_nil]
          cases sort : tag.kind with
          | within => simp [Piece.source]
          | whenTrue =>
              cases Json.isTruthy? (scope.resolve? tag.path) with
              | true => exact inside after
              | false => rfl
          | whenFalse =>
              cases Json.isTruthy? (scope.resolve? tag.path) with
              | true => rfl
              | false => exact inside after
          | forEach =>
              rw [sort] at earlier
              exact absurd kind.rank_le (Nat.not_le.2 earlier)
        · -- Still to come: its tags are tags like any other, and stay.
          have next : kind.rank + 1 ≤ tag.kind.rank :=
            Nat.lt_of_le_of_ne later fun same => own (eq_of_rank same.symm)
          have closing : Directive.opening? kind ('/' :: tag.closeName) = none := rfl
          rw [residue_of_le later, residue_of_le next, List.cons_append, List.append_assoc,
            replaceBlocks_tag _ _ _ opens, inside]
          simp [BlockTag.close, replaceBlocks_tag _ _ _ closing, Piece.source]

theorem everyBlock_of_distinct (kind : BlockKind) {P : BlockTag → Markup → Prop} {m : Markup}
    (distinct : m.Distinct)
    (holds : ∀ tag body, tag.kind = kind → tag.closeName ∉ body.closeNames → P tag body) :
    m.EveryBlock kind P := by
  induction m with
  | done => trivial
  | text words rest ih => exact ih distinct
  | value tag rest ih => exact ih distinct
  | block tag body rest bodyIh restIh =>
      obtain ⟨apart, inside, behind⟩ := distinct
      refine ⟨?_, restIh behind⟩
      split
      · next own => exact holds tag body own apart
      · exact bodyIh inside

theorem replaceBlocks_of_distinct (kind : BlockKind) {name : List Char}
    (named : kind.keyword? = some name) {render : List Char → List Piece → List Char}
    {scope : Json} {m : Markup} (distinct : m.Distinct)
    (same : ∀ tag body, tag.kind = kind → name ∉ body.closeNames →
      render tag.path (body.residue kind.rank scope none) =
        source ((block tag body done).residue (kind.rank + 1) scope none)) :
    replaceBlocks kind render (m.residue kind.rank scope none) =
      source (m.residue (kind.rank + 1) scope none) := by
  have every : m.EveryBlock kind (Rendered kind render scope) :=
    everyBlock_of_distinct kind distinct fun tag body own apart =>
      ⟨apart, same tag body own (closeName_eq tag (own ▸ named) ▸ apart)⟩
  have pass := replaceBlocks_residue kind every []
  rwa [List.append_nil, replaceBlocks_nil, List.append_nil] at pass

theorem keepWhen_whenTrue {m : Markup} (distinct : m.Distinct) (scope : Json) :
    keepWhen whenTrue true scope (m.residue 1 scope none) = source (m.residue 2 scope none) := by
  refine replaceBlocks_of_distinct whenTrue rfl distinct fun tag body own apart => ?_
  have same := residue_succ whenTrue rfl apart scope none
  simp only [residue, own, List.append_nil]
  cases Json.isTruthy? (scope.resolve? tag.path) with
  | true => exact congrArg source same.symm
  | false => rfl

theorem keepWhen_whenFalse {m : Markup} (distinct : m.Distinct) (scope : Json) :
    keepWhen whenFalse false scope (m.residue 2 scope none) = source (m.residue 3 scope none) := by
  refine replaceBlocks_of_distinct whenFalse rfl distinct fun tag body own apart => ?_
  have same := residue_succ whenFalse rfl apart scope none
  simp only [residue, own, List.append_nil]
  cases Json.isTruthy? (scope.resolve? tag.path) with
  | true => rfl
  | false => exact congrArg source same.symm

end Markup

theorem iterationValue?_eq (tag : ValueTag) (binding : Binding) :
    iterationValue? binding.item binding.index tag.inner = binding.value? tag.path := by
  rw [tag.path_eq]
  rfl

theorem flatMap_intercalate {α β : Type} (f : α → List β) (sep : List α) (ls : List (List α)) :
    (sep.intercalate ls).flatMap f = (sep.flatMap f).intercalate (ls.map fun l => l.flatMap f) := by
  induction ls with
  | nil => rfl
  | cons l rest ih =>
      cases rest with
      | nil => simp only [List.intercalate_singleton, List.map_cons, List.map_nil]
      | cons next rest =>
          rw [List.map_cons] at ih
          rw [List.map_cons, List.map_cons, List.intercalate_cons_cons, List.intercalate_cons_cons,
            List.flatMap_append, List.flatMap_append, ih]

namespace Markup

theorem bindIteration_residue {body : Markup} (absent : ['e', 'a', 'c', 'h'] ∉ body.closeNames)
    (scope : Json) (binding : Binding) :
    bindIteration (body.residue 3 scope none) binding.item binding.index =
      source (body.residue 4 scope (some binding)) := by
  simp only [bindIteration]
  induction body with
  | done => rfl
  | text words rest ih => rw [residue, residue, replaceTags_text, ih absent, source_cons]; rfl
  | value tag rest ih =>
      change replaceTags _ (.tag tag.inner :: rest.residue 3 scope none) = _
      rw [residue, replaceTags_tag, iterationValue?_eq, ih absent, source_cons]
      simp only [ValueTag.bound, Option.bind_some]
      cases binding.value? tag.path with
      | none => rfl
      | some chars => rfl
  | block tag body rest bodyIh restIh =>
      rw [closeNames, List.mem_cons, List.mem_append, not_or, not_or] at absent
      obtain ⟨other, inside, behind⟩ := absent
      rw [residue_block 3, residue_block 4, replaceTags_append, source_append, restIh behind]
      congr 1
      simp only [residue, List.append_nil]
      cases sort : tag.kind with
      | within => simp [BlockKind.rank, Piece.source]
      | whenTrue =>
          cases Json.isTruthy? (scope.resolve? tag.path) with
          | true => exact bodyIh inside
          | false => rfl
      | whenFalse =>
          cases Json.isTruthy? (scope.resolve? tag.path) with
          | true => rfl
          | false => exact bodyIh inside
      | forEach => exact absurd (closeName_eq tag (by rw [sort]; rfl)).symm other

theorem repeatEach_residue {m : Markup} (distinct : m.Distinct) (scope : Json) :
    repeatEach scope (m.residue 3 scope none) = source (m.residue 4 scope none) := by
  refine replaceBlocks_of_distinct forEach rfl distinct fun tag body own apart => ?_
  have binds := bindIteration_residue apart scope
  simp only [residue, own, List.append_nil]
  cases scope.resolve? tag.path with
  | none => rfl
  | some value =>
      cases value with
      | arr items =>
          change ['\n'].intercalate (items.zipIdx.map fun item => bindIteration _ item.1 item.2) =
            source ([.text ['\n']].intercalate ((bindingsOf (some (.arr items))).map fun binding =>
              body.residue 4 scope (some binding)))
          rw [source, flatMap_intercalate, bindingsOf, List.map_map, List.map_map]
          exact congrArg _ (List.map_congr_left fun item _ => binds ⟨item.1, item.2⟩)
      | _ => rfl

theorem interpolate_residue (m : Markup) (scope : Json) (loop : Option Binding) :
    interpolate scope (m.residue 4 scope loop) = m.eval scope loop := by
  simp only [interpolate]
  induction m generalizing loop with
  | done => rfl
  | text words rest ih => rw [residue, eval, replaceTags_text, ih]
  | value tag rest ih =>
      have names : Directive.path? tag.inner = some tag.path := by
        rw [Directive.path?, tag.reads]
      rw [residue, eval, valueText, ← ih]
      simp only [ValueTag.bound]
      cases loop.bind fun binding => binding.value? tag.path with
      | none => simp [names]
      | some chars => simp
  | block tag body rest bodyIh restIh =>
      have gone : tag.kind.rank < 4 := Nat.lt_succ_of_le tag.kind.rank_le
      rw [residue_block, eval, replaceTags_append, restIh]
      congr 1
      simp only [residue, gone, if_true, List.append_nil]
      cases tag.kind with
      | within => simp
      | whenTrue =>
          cases Json.isTruthy? (scope.resolve? tag.path) with
          | true => exact bodyIh loop
          | false => rfl
      | whenFalse =>
          cases Json.isTruthy? (scope.resolve? tag.path) with
          | true => rfl
          | false => exact bodyIh loop
      | forEach =>
          change replaceTags _ (List.intercalate _ _) = _
          rw [replaceTags, flatMap_intercalate, List.map_map]
          exact congrArg _ (List.map_congr_left fun binding _ => bodyIh (some binding))

/-! ### Nothing but the tags is braced -/

theorem plain_bound {tag : ValueTag} {scope : Json} {loop : Option Binding}
    (plain : loop = none ∨ Plain (valueText scope loop tag.path)) : (tag.bound loop).Plain := by
  rw [ValueTag.bound]
  split
  · next chars binds =>
      rcases plain with rfl | plain
      · cases binds
      · rwa [valueText, binds] at plain
  · exact tag.plain

/-- Behind the pass over scoped blocks every text is plain; behind the pass over loops too, when the
values that were bound are. -/
theorem plain_residue {m : Markup} {n : Nat} {scope : Json} {loop : Option Binding} (started : 0 < n)
    (expandable : m.Expandable scope) (unbound : n ≤ 3 → loop = none)
    (printable : 3 < n → m.Printable scope loop) : PlainPieces (m.residue n scope loop) := by
  induction m generalizing loop with
  | done => exact plainPieces_nil
  | text words rest ih =>
      exact plainPieces_cons.2 ⟨words.plain, ih expandable unbound printable⟩
  | value tag rest ih =>
      have here : loop = none ∨ Plain (valueText scope loop tag.path) := by
        rcases Nat.lt_or_ge 3 n with late | early
        · exact .inr (printable late).1
        · exact .inl (unbound early)
      exact plainPieces_cons.2
        ⟨plain_bound here, ih expandable unbound fun late => (printable late).2⟩
  | block tag body rest bodyIh restIh =>
      obtain ⟨expandBody, expandRest⟩ := expandable
      rw [residue_block]
      refine plainPieces_append.2 ⟨?_, restIh expandRest unbound fun late => (printable late).2⟩
      have printBody := fun late => (printable late).1
      rcases Nat.lt_or_ge tag.kind.rank n with gone | waits
      · simp only [residue, gone, if_true, List.append_nil]
        cases sort : tag.kind with
        | within =>
            simp only [sort, if_true] at expandBody
            refine plainPieces_cons.2 ⟨plain_flatMap fun inner opened => ?_, plainPieces_nil⟩
            exact plain_eval (expandBody.2 inner opened).1 (expandBody.2 inner opened).2
        | whenTrue =>
            simp only [sort, reduceCtorEq, if_false] at expandBody printBody
            change PlainPieces (if _ then _ else _)
            split
            · next keeps => exact bodyIh expandBody unbound fun late => printBody late keeps
            · exact plainPieces_nil
        | whenFalse =>
            simp only [sort, reduceCtorEq, if_false] at expandBody printBody
            change PlainPieces (if _ then _ else _)
            split
            · exact plainPieces_nil
            · next drops =>
                exact bodyIh expandBody unbound fun late => printBody late (Bool.eq_false_iff.2 drops)
        | forEach =>
            simp only [sort, reduceCtorEq, if_false] at expandBody printBody
            have late : 3 < n := by rwa [sort] at gone
            intro p member
            rcases mem_intercalate member with between | ⟨part, listed, inside⟩
            · rw [List.mem_singleton.1 between]
              exact (by decide : Plain ['\n'])
            · obtain ⟨binding, bound, rfl⟩ := List.mem_map.1 listed
              exact bodyIh expandBody (fun early => absurd late (Nat.not_lt.2 early))
                (fun late => printBody late binding bound) p inside
      · have early : n ≤ 3 := Nat.le_trans waits tag.kind.rank_le
        have unscoped : tag.kind ≠ within := by
          intro sort
          rw [sort] at waits
          exact absurd started (Nat.not_lt.2 waits)
        rw [if_neg unscoped] at expandBody
        rw [residue_of_le waits]
        refine plainPieces_cons.2 ⟨tag.plain, plainPieces_append.2 ⟨?_, ?_⟩⟩
        · exact bodyIh expandBody unbound fun late => absurd late (Nat.not_lt.2 early)
        · exact plainPieces_cons.2 ⟨tag.plain_close, plainPieces_nil⟩

/-! ### All passes -/

theorem expandFlat_residue {m : Markup} {scope : Json} (distinct : m.Distinct)
    (expandable : m.Expandable scope) (printable : m.Printable scope none) :
    expandFlat scope (source (m.residue 1 scope none)) = m.eval scope none := by
  have tidy : ∀ n, 0 < n → TidyPieces (m.residue n scope none) := fun n started =>
    (plain_residue started expandable (fun _ => rfl) (fun _ => printable)).tidy
  simp only [expandFlat]
  rw [keepWhen_scan _ _ _ (tidy 1 (by decide)), keepWhen_whenTrue distinct,
    keepWhen_scan _ _ _ (tidy 2 (by decide)), keepWhen_whenFalse distinct,
    repeatEach_scan _ (tidy 3 (by decide)), repeatEach_residue distinct,
    interpolate_scan _ (tidy 4 (by decide)), interpolate_residue]

theorem expand_of_everyBlock {m : Markup} {scope : Json} (distinct : m.Distinct)
    (expandable : m.Expandable scope) (printable : m.Printable scope none)
    (every : m.EveryBlock within (Rendered within (scopedText scope) scope)) :
    expand scope m.pieces = m.eval scope none := by
  have pass := replaceBlocks_residue within every []
  rw [List.append_nil, replaceBlocks_nil, List.append_nil] at pass
  rw [expand_eq, ← residue_zero m scope]
  exact (congrArg _ pass).trans (expandFlat_residue distinct expandable printable)

theorem isTruthy?_of_not_isTrueScalar {j : Json} (scopes : isTrueScalar (some j) = false)
    (unlisted : j.isArray = false) (unkeyed : j.isObject = false) :
    Json.isTruthy? (some j) = false := by
  simpa [isTrueScalar, unlisted, unkeyed] using scopes

theorem scopedText_residue {tag : BlockTag} {body : Markup} {scope : Json} (sort : tag.kind = within)
    (scopes : isTrueScalar (scope.resolve? tag.path) = false)
    (expands : ∀ inner ∈ scopesOf scope (scope.resolve? tag.path),
      expand inner body.pieces = body.eval inner none) :
    scopedText scope tag.path (body.residue 0 scope none) =
      source ((block tag body done).residue 1 scope none) := by
  have text : source ((block tag body done).residue 1 scope none) =
      (scopesOf scope (scope.resolve? tag.path)).flatMap fun inner => body.eval inner none := by
    simp [residue, sort, BlockKind.rank, Piece.source]
  rw [text, residue_zero, scopedText]
  generalize scope.resolve? tag.path = value at scopes expands ⊢
  cases value with
  | none => rfl
  | some j =>
      cases j with
      | arr items =>
          rw [scopesOf, List.flatMap_map]
          exact congrArg List.flatten
            (List.map_congr_left fun item listed => expands _ (List.mem_map_of_mem listed))
      | obj fields =>
          simp only [scopesOf] at expands ⊢
          split
          · rfl
          · next filled =>
              rw [if_neg filled] at expands
              rw [expands _ (List.mem_singleton.2 rfl)]
              simp
      | _ =>
          have drops := isTruthy?_of_not_isTrueScalar scopes rfl rfl
          simp only [drops, scopesOf, Bool.false_eq_true, if_false, List.flatMap_nil]

theorem everyBlock_within {m : Markup} {scope : Json} (distinct : m.Distinct)
    (expandable : m.Expandable scope) :
    m.EveryBlock within (Rendered within (scopedText scope) scope) := by
  induction m generalizing scope with
  | done => trivial
  | text words rest ih => exact ih distinct expandable
  | value tag rest ih => exact ih distinct expandable
  | block tag body rest bodyIh restIh =>
      obtain ⟨apart, inside, behind⟩ := distinct
      obtain ⟨expandBody, expandRest⟩ := expandable
      refine ⟨?_, restIh behind expandRest⟩
      split
      · next sort =>
          -- The body is expanded in scopes of its own, where the claim holds by induction.
          rw [if_pos sort] at expandBody
          refine ⟨apart, scopedText_residue sort expandBody.1 fun inner opened => ?_⟩
          obtain ⟨expands, prints⟩ := expandBody.2 inner opened
          exact expand_of_everyBlock inside expands prints (bodyIh inside expands)
      · next other =>
          rw [if_neg other] at expandBody
          exact bodyIh inside expandBody

end Markup

/-- Compiling what a tree prints gives the meaning of the tree, with blank space normalized. -/
theorem compile_print (m : Markup) (data : Json) (distinct : m.Distinct)
    (expandable : m.Expandable data) (printable : m.Printable data none) :
    compile (String.ofList m.print) data = String.ofList (normalize (m.eval data none)) := by
  have expanded : expand data (scan m.print) = m.eval data none := by
    rw [Markup.print, expand_scan _ m.plain_pieces]
    exact Markup.expand_of_everyBlock distinct expandable printable
      (Markup.everyBlock_within distinct expandable)
  rw [compile, compileChars, String.toList_ofList, expanded,
    eraseTags_scan (Markup.plain_eval expandable printable)]

/-- A list of dishes; the host inside the loop is a scope of its own. -/
def menu : Markup :=
  .block ⟨"#each dishes".toList, ⟨forEach, "dishes".toList⟩, by decide⟩
    (.value ⟨"@index".toList, "@index".toList, by decide⟩ <|
      .text ⟨": ".toList, by decide⟩ <|
      .value ⟨" this ".toList, "this".toList, by decide⟩ <|
      .block ⟨"#if open".toList, ⟨whenTrue, "open".toList⟩, by decide⟩
        (.text ⟨"!".toList, by decide⟩ .done) <|
      .block ⟨"#host".toList, ⟨within, "host".toList⟩, by decide⟩
        (.text ⟨" by ".toList, by decide⟩ <|
          .value ⟨"name".toList, "name".toList, by decide⟩ .done)
      .done)
    .done

def dishes : Json :=
  .obj [("dishes", .arr [.str "tea", .str "cake"]), ("open", .str "yes"),
    ("host", .obj [("name", .str "Ada")])]

def menuTemplate : String :=
  "\x7b\x7b#each dishes\x7d\x7d\x7b\x7b@index\x7d\x7d: \x7b\x7b this \x7d\x7d" ++
    "\x7b\x7b#if open\x7d\x7d!\x7b\x7b/if\x7d\x7d" ++
    "\x7b\x7b#host\x7d\x7d by \x7b\x7bname\x7d\x7d\x7b\x7b/host\x7d\x7d\x7b\x7b/each\x7d\x7d"

theorem compile_menu : menu.Distinct ∧ menu.Expandable dishes ∧ menu.Printable dishes none ∧
    compile menuTemplate dishes = "0: tea! by Ada\n1: cake! by Ada" := by
  have distinct : menu.Distinct := by
    simp [menu, Markup.Distinct, Markup.closeNames, BlockTag.closeName, Opening.closeName,
      BlockKind.keyword?]
  have expandable : menu.Expandable dishes := by
    refine ⟨⟨trivial, ⟨rfl, ?_⟩, trivial⟩, trivial⟩
    rintro inner (_ | ⟨_, ⟨⟩⟩)
    exact ⟨trivial, by decide, trivial⟩
  have printable : menu.Printable dishes none := by
    refine ⟨?_, trivial⟩
    rintro binding (_ | ⟨_, _ | ⟨_, ⟨⟩⟩⟩)
    · exact ⟨by decide, by decide, fun _ => trivial, trivial, trivial⟩
    · exact ⟨by decide, by decide, fun _ => trivial, trivial, trivial⟩
  have template : String.ofList menu.print = menuTemplate := by rfl
  have meaning : String.ofList (normalize (menu.eval dishes none)) =
      "0: tea! by Ada\n1: cake! by Ada" := by rfl
  refine ⟨distinct, expandable, printable, ?_⟩
  rw [← template, ← meaning]
  exact compile_print menu dishes distinct expandable printable

end Prompt.Template
