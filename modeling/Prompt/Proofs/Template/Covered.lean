import Prompt.Proofs.Template.Grammar
import Prompt.Proofs.Template.Passes

/-!
# What the checks against data cover

Beside the compiler, the paths that it looks up for its blocks and the data in which it does so
(`lookups`). Without scoped blocks that is always the data of the template, and the lookups settle all of the
compiled text but its plain values (`compile_of_lookups`). A template that passes the checks against its data
has no unknown path in any of its blocks, but for one case: a condition inside a loop may ask for the item, of
which the pass over conditions does not know (`resolve?_of_check`, `check_loop_condition`).
-/

namespace Prompt.Template

open BlockKind

/-! ### What compiling looks up -/

/-- A block whose path is looked up, and the data in which it is. -/
structure Lookup where
  scope : Json
  opening : Opening

def passLookups (kind : BlockKind) (scope : Json) : List Piece → List Lookup :=
  overBlocks kind (fun _ => []) fun path _ => [⟨scope, ⟨kind, path⟩⟩]

/-- The blocks of the passes over a scope, each in the text that the pass before it leaves. -/
def flatLookups (scope : Json) (text : List Char) : List Lookup :=
  let conditions := scan text
  let exceptions := scan (keepWhen whenTrue true scope conditions)
  let loops := scan (keepWhen whenFalse false scope exceptions)
  passLookups whenTrue scope conditions ++ passLookups whenFalse scope exceptions ++
    passLookups forEach scope loops

def lookups (scope : Json) (ps : List Piece) : List Lookup :=
  passLookups within scope ps ++
    ((blocks (Directive.opening? within) ps).attach.flatMap fun segment =>
      match _h : segment.val with
      | .piece _ => []
      | .block _ o body =>
        (scopesOf scope (scope.resolve? o.path)).flatMap fun inner => lookups inner body) ++
    flatLookups scope (replaceBlocks within (scopedText scope) ps)
termination_by ps.length
decreasing_by exact length_body_lt (_h ▸ segment.property)

theorem scope_of_mem_passLookups {kind : BlockKind} {scope : Json} {ps : List Piece} {l : Lookup}
    (asked : l ∈ passLookups kind scope ps) : l.scope = scope := by
  obtain ⟨segment, -, inside⟩ := List.mem_flatMap.1 asked
  cases segment with
  | piece p => cases inside
  | block inner o body => rw [List.mem_singleton.1 inside]

theorem scope_of_mem_flatLookups {scope : Json} {text : List Char} {l : Lookup}
    (asked : l ∈ flatLookups scope text) : l.scope = scope := by
  simp only [flatLookups, List.mem_append] at asked
  rcases asked with (asked | asked) | asked <;> exact scope_of_mem_passLookups asked

/-- The text of a scope before its plain values go in. -/
def unfolded (data : Json) (text : List Char) : List Char :=
  repeatEach data (scan (keepWhen whenFalse false data (scan (keepWhen whenTrue true data (scan text)))))

theorem expandFlat_eq_interpolate (data : Json) (text : List Char) :
    expandFlat data text = interpolate data (scan (unfolded data text)) := rfl

theorem replaceBlocks_congr {kind : BlockKind} {scope : Json} {ps : List Piece}
    {render render' : List Char → List Piece → List Char}
    (alike : ∀ l ∈ passLookups kind scope ps, ∀ body, render l.opening.path body = render' l.opening.path body) :
    replaceBlocks kind render ps = replaceBlocks kind render' ps := by
  refine List.flatMap_congr fun segment listed => ?_
  cases segment with
  | piece p => rfl
  | block inner o body =>
      exact alike ⟨scope, ⟨kind, o.path⟩⟩ (List.mem_flatMap.2 ⟨_, listed, List.mem_singleton_self _⟩) body

/-- The blocks of a text open and close by what is looked up, and by nothing else in the data. -/
theorem unfolded_congr {data other : Json} {text : List Char}
    (alike : ∀ l ∈ flatLookups data text, other.resolve? l.opening.path = data.resolve? l.opening.path) :
    unfolded other text = unfolded data text := by
  simp only [flatLookups, List.mem_append] at alike
  have conditions : keepWhen whenTrue true other (scan text) = keepWhen whenTrue true data (scan text) :=
    replaceBlocks_congr fun l asked body => by rw [alike l (.inl (.inl asked))]
  have exceptions : keepWhen whenFalse false other (scan (keepWhen whenTrue true data (scan text))) =
      keepWhen whenFalse false data (scan (keepWhen whenTrue true data (scan text))) :=
    replaceBlocks_congr fun l asked body => by rw [alike l (.inl (.inr asked))]
  rw [unfolded, conditions, exceptions, unfolded, repeatEach, repeatEach]
  exact replaceBlocks_congr fun l asked body => by rw [alike l (.inr asked)]

/-- No tag opens a scoped block. -/
def ScopeFree (ps : List Piece) : Prop :=
  ∀ inner ∈ tags ps, ∀ name, ¬ Spelled inner (.opens ⟨within, name⟩)

theorem mem_tags {ps : List Piece} {inner : List Char} : inner ∈ tags ps ↔ .tag inner ∈ ps := by
  simp only [tags, List.mem_filterMap]
  constructor
  · rintro ⟨p, listed, same⟩
    cases p with
    | text chars => cases same
    | tag other =>
        cases same
        exact listed
  · exact fun listed => ⟨_, listed, rfl⟩

theorem Directive.opening?_eq_some_iff {kind : BlockKind} {inner : List Char} {o : Opening} :
    Directive.opening? kind inner = some o ↔ Directive.of inner = .opens o ∧ o.kind = kind := by
  unfold Directive.opening?
  cases Directive.of inner with
  | opens other =>
      simp only [Option.ite_none_right_eq_some, Option.some.injEq, Directive.opens.injEq]
      constructor
      · rintro ⟨own, rfl⟩
        exact ⟨rfl, own⟩
      · rintro ⟨rfl, own⟩
        exact ⟨own, rfl⟩
  | _ => simp

theorem scopeFree_iff {ps : List Piece} :
    ScopeFree ps ↔ ∀ inner ∈ tags ps, Directive.opening? within inner = none := by
  refine forall₂_congr fun inner _ => ?_
  rw [Option.eq_none_iff_forall_ne_some]
  constructor
  · intro free o opens
    obtain ⟨reads, own⟩ := Directive.opening?_eq_some_iff.1 opens
    obtain ⟨kind, path⟩ := o
    cases own
    exact free path (spelled_opens_iff.2 reads)
  · intro none name spelled
    exact none _ (Directive.opening?_eq_some_iff.2 ⟨spelled_opens_iff.1 spelled, rfl⟩)

theorem ScopeFree.not_mem_blocks {ps body : List Piece} (free : ScopeFree ps) {inner : List Char}
    {o : Opening} : .block inner o body ∉ blocks (Directive.opening? within) ps := by
  intro listed
  have closed := scopeFree_iff.1 free inner (mem_tags.2 (tag_mem_of_mem_blocks listed))
  exact absurd ((opener_of_mem_blocks listed).symm.trans closed) nofun

theorem ScopeFree.scope_of_mem_lookups {ps : List Piece} (free : ScopeFree ps) {data : Json}
    {l : Lookup} (asked : l ∈ lookups data ps) : l.scope = data := by
  rw [lookups, List.mem_append, List.mem_append] at asked
  rcases asked with (asked | asked) | asked
  · exact scope_of_mem_passLookups asked
  · obtain ⟨⟨segment, listed⟩, -, inside⟩ := List.mem_flatMap.1 asked
    cases segment with
    | piece p => cases inside
    | block inner o body => exact absurd listed free.not_mem_blocks
  · exact scope_of_mem_flatLookups asked

theorem ScopeFree.replaceBlocks_eq {ps : List Piece} (free : ScopeFree ps)
    (render : List Char → List Piece → List Char) : replaceBlocks within render ps = source ps := by
  rw [replaceBlocks, ← source_blocks (Directive.opening? within) ps]
  refine List.flatMap_congr fun segment listed => ?_
  cases segment with
  | piece p => rfl
  | block inner o body => exact absurd listed free.not_mem_blocks

/-- For data that answer the lookups alike the same blocks stay and repeat: what is compiled differs only by the
plain values that are put in last. -/
theorem compile_of_lookups {template : String} {data other : Json} (free : ScopeFree (scan template.toList))
    (alike : ∀ l ∈ lookups data (scan template.toList),
      other.resolve? l.opening.path = data.resolve? l.opening.path) :
    compile template other = String.ofList
      (normalize (eraseTags (scan (interpolate other (scan (unfolded data template.toList)))))) := by
  have flat : ∀ l ∈ flatLookups data template.toList,
      other.resolve? l.opening.path = data.resolve? l.opening.path := fun l asked => by
    refine alike l ?_
    rw [lookups, free.replaceBlocks_eq, source_scan]
    exact List.mem_append_right _ asked
  rw [compile, compileChars, expand_eq, free.replaceBlocks_eq, source_scan, expandFlat_eq_interpolate,
    unfolded_congr flat]

/-! ### Inside loops -/

/-- An `each` block has been opened and not closed. -/
def InLoop (before : List Piece) : Prop :=
  ∃ front opener path inside, before = front ++ .tag opener :: inside ∧
    Spelled opener (.opens ⟨forEach, path⟩) ∧ ['/', 'e', 'a', 'c', 'h'] ∉ tags inside

theorem InLoop.cons {before : List Piece} (loop : InLoop before) (p : Piece) : InLoop (p :: before) := by
  obtain ⟨front, opener, path, inside, rfl, opens, open_ended⟩ := loop
  exact ⟨p :: front, opener, path, inside, rfl, opens, open_ended⟩

/-- The same, seen from the middle of a template, behind the openings on the stack. -/
def Looped (stack : List Frame) (before : List Piece) : Prop :=
  InLoop before ∨
    (∃ f ∈ stack, f.opening.kind = forEach) ∧ ['/', 'e', 'a', 'c', 'h'] ∉ tags before

theorem Looped.text {stack : List Frame} {before : List Piece} (chars : List Char)
    (looped : Looped stack before) : Looped stack (.text chars :: before) :=
  looped.imp_left fun inside => inside.cons _

theorem Looped.tag {stack : List Frame} {before : List Piece} {tag : List Char}
    (other : tag ≠ ['/', 'e', 'a', 'c', 'h']) (looped : Looped stack before) :
    Looped stack (.tag tag :: before) := by
  refine looped.imp (fun inside => inside.cons _) fun ⟨loop, open_ended⟩ => ⟨loop, ?_⟩
  rw [tags_tag, List.mem_cons, not_or]
  exact ⟨Ne.symm other, open_ended⟩

theorem name_of_forEach {f : Frame} (loop : f.opening.kind = forEach) :
    f.name = ['e', 'a', 'c', 'h'] := by
  simp [Frame.name, Opening.closeName, loop, BlockKind.keyword?]

/-- What is closed is another block than the loop, for no two on the stack have the same name. -/
theorem Looped.close {stack : List Frame} {before : List Piece} {tag : List Char} {f : Frame}
    (apart : f.name ∉ stack.map Frame.name) (reads : Directive.of tag = .close f.name)
    (looped : Looped stack before) : Looped (f :: stack) (.tag tag :: before) := by
  refine looped.imp (fun inside => inside.cons _) fun ⟨⟨g, member, loop⟩, open_ended⟩ =>
    ⟨⟨g, List.mem_cons_of_mem _ member, loop⟩, ?_⟩
  rw [tags_tag, List.mem_cons, not_or]
  refine ⟨fun closes => apart ?_, open_ended⟩
  have same : f.name = g.name := by
    rw [name_of_forEach loop]
    exact (List.cons.inj (closes.trans (Directive.of_eq_close reads))).2.symm
  exact same ▸ List.mem_map_of_mem member

theorem Looped.opens {stack : List Frame} {before : List Piece} {tag : List Char} {o : Opening} {offset : Nat}
    (reads : Directive.of tag = .opens o) (looped : Looped (⟨o, offset⟩ :: stack) before) :
    Looped stack (.tag tag :: before) := by
  rcases looped with inside | ⟨⟨g, member, loop⟩, open_ended⟩
  · exact .inl (inside.cons _)
  · rcases List.mem_cons.1 member with rfl | member
    · obtain ⟨kind, path⟩ := o
      cases loop
      exact .inl ⟨[], tag, path, before, rfl, spelled_opens_iff.2 reads, open_ended⟩
    · refine Looped.tag ?_ (.inr ⟨⟨g, member, loop⟩, open_ended⟩)
      rintro rfl
      cases reads

theorem checkPath_eq_nil {data : Json} {stack : List Frame} {path : List Char} {offset : Nat}
    (free : ∀ f ∈ stack, f.opening.kind ≠ within)
    (accepted : checkPath (some data) stack path offset = []) :
    (data.resolve? path).isSome ∨ isLoopPath path = true ∧ ∃ f ∈ stack, f.opening.kind = forEach := by
  have unscoped : (stack.any fun f => f.opening.kind = within) = false := by simpa using free
  simp only [checkPath, unscoped, Bool.false_eq_true, if_false] at accepted
  split at accepted
  · next exempt =>
      simp only [Bool.and_eq_true, List.any_eq_true, decide_eq_true_eq] at exempt
      exact .inr ⟨exempt.2, exempt.1⟩
  · split at accepted
    · next found => exact .inl found
    · cases accepted

/-- The stack of the checker holds the blocks around, so that an item is only asked for inside a loop. -/
theorem resolve?_of_checkFrom {data : Json} {stack : List Frame} {offset : Nat}
    {before after : List Piece} {inner : List Char} {o : Opening}
    (nodup : (stack.map Frame.name).Nodup) (unscoped : ∀ f ∈ stack, f.opening.kind ≠ within)
    (free : ScopeFree before) (opens : Directive.of inner = .opens o)
    (accepted : checkFrom (some data) stack offset (before ++ .tag inner :: after) = []) :
    (data.resolve? o.path).isSome ∨
      o.kind ≠ forEach ∧ isLoopPath o.path = true ∧ Looped stack before := by
  induction before generalizing stack offset with
  | nil =>
      rw [List.nil_append, checkFrom, List.append_eq_nil_iff, checkTag_eq_nil_iff, opens] at accepted
      obtain ⟨⟨apart, known⟩, -⟩ := accepted
      rcases checkPath_eq_nil unscoped known with found | ⟨loopPath, f, member, loop⟩
      · exact .inl found
      · refine .inr ⟨fun again => apart ?_, loopPath, .inr ⟨⟨f, member, loop⟩, by simp [tags]⟩⟩
        have same : f.name = o.closeName := by
          rw [name_of_forEach loop, Opening.closeName, again]
          rfl
        exact same ▸ List.mem_map_of_mem member
  | cons p before ih =>
      cases p with
      | text chars =>
          rw [List.cons_append, checkFrom, List.append_eq_nil_iff] at accepted
          exact (ih nodup unscoped free accepted.2).imp_right
            (And.imp_right (And.imp_right (Looped.text chars)))
      | tag tag =>
          rw [List.cons_append, checkFrom, List.append_eq_nil_iff, checkTag_eq_nil_iff,
            stack_checkTag] at accepted
          obtain ⟨here, behind⟩ := accepted
          have freeRest : ScopeFree before := fun inner member => free inner (List.mem_cons_of_mem _ member)
          cases reads : Directive.of tag with
          | close name =>
              rw [reads] at here behind
              obtain ⟨f, outside, rfl, rfl⟩ := here
              dsimp only at behind
              rw [closeBlock_of_name rfl] at behind
              obtain ⟨apart, nodup⟩ := List.nodup_cons.1 nodup
              exact (ih nodup (fun f member => unscoped f (List.mem_cons_of_mem _ member)) freeRest
                behind).imp_right (And.imp_right (And.imp_right (Looped.close apart reads)))
          | opens other =>
              rw [reads] at here behind
              have apart : ((⟨other, offset⟩ :: stack : List Frame).map Frame.name).Nodup :=
                List.nodup_cons.2 ⟨here.1, nodup⟩
              have plain : other.kind ≠ within := by
                intro own
                obtain ⟨kind, path⟩ := other
                cases own
                exact free tag List.mem_cons_self path (spelled_opens_iff.2 reads)
              exact (ih apart (List.forall_mem_cons.2 ⟨plain, unscoped⟩) freeRest behind).imp_right
                (And.imp_right (And.imp_right (Looped.opens reads)))
          | «variable» path =>
              rw [reads] at behind
              refine (ih nodup unscoped freeRest behind).imp_right
                (And.imp_right (And.imp_right (Looped.tag ?_)))
              rintro rfl
              cases reads
          | malformed =>
              rw [reads] at here
              exact here.elim

theorem resolve?_of_check {template : String} {data : Json} (free : ScopeFree (scan template.toList))
    (accepted : check template (some data) = []) :
    (∀ l ∈ lookups data (scan template.toList), l.scope = data) ∧
      ∀ before inner after o, scan template.toList = before ++ .tag inner :: after →
        Spelled inner (.opens o) → (data.resolve? o.path).isSome ∨
          o.kind ≠ forEach ∧ isLoopPath o.path = true ∧ InLoop before := by
  refine ⟨fun l asked => free.scope_of_mem_lookups asked, fun before inner after o pieces spelled => ?_⟩
  rw [check, pieces] at accepted
  have freeBefore : ScopeFree before := fun tag member =>
    free tag (pieces ▸ mem_tags.2 (List.mem_append_left _ (mem_tags.1 member)))
  have apart : (([] : List Frame).map Frame.name).Nodup := List.nodup_nil
  refine (resolve?_of_checkFrom apart (List.forall_mem_nil _) freeBefore
    (spelled_opens_iff.1 spelled) accepted).imp_right (And.imp_right (And.imp_right ?_))
  rintro (inside | ⟨⟨f, member, -⟩, -⟩)
  · exact inside
  · cases member

def stockTemplate : String :=
  "\x7b\x7b#each items\x7d\x7d\x7b\x7b#if open\x7d\x7d\x7b\x7bthis\x7d\x7d\x7b\x7b/if\x7d\x7d\x7b\x7b/each\x7d\x7d"

def stock : Json := .obj [("items", .arr [.str "tea"]), ("open", .bool true)]

theorem resolve?_of_check_stock :
    ScopeFree (scan stockTemplate.toList) ∧ check stockTemplate (some stock) = [] ∧
    (∀ l ∈ lookups stock (scan stockTemplate.toList), l.scope = stock) ∧
    (stock.resolve? "items".toList).isSome ∧ (stock.resolve? "open".toList).isSome := by
  have free : ScopeFree (scan stockTemplate.toList) := scopeFree_iff.2 (by decide +kernel)
  have accepted : check stockTemplate (some stock) = [] := by decide +kernel
  have pieces : scan stockTemplate.toList = [.text [], .tag "#each items".toList, .text [],
      .tag "#if open".toList, .text [], .tag "this".toList, .text [], .tag "/if".toList, .text [],
      .tag "/each".toList, .text []] := by decide +kernel
  obtain ⟨scopes, covered⟩ := resolve?_of_check free accepted
  have loop := covered [.text []] _ _ ⟨forEach, "items".toList⟩ pieces
    (spelled_opens_iff.2 (by decide +kernel))
  have condition := covered [.text [], .tag "#each items".toList, .text []] _ _
    ⟨whenTrue, "open".toList⟩ pieces (spelled_opens_iff.2 (by decide +kernel))
  exact ⟨free, accepted, scopes, loop.resolve_right fun other => other.1 rfl,
    condition.resolve_right fun other => absurd other.2.1 (by decide)⟩

def itemTemplate : String :=
  "\x7b\x7b#each items\x7d\x7d\x7b\x7b#if this.x\x7d\x7dA\x7b\x7b/if\x7d\x7d\x7b\x7b/each\x7d\x7d"

def itemData : Json := .obj [("items", .arr [.obj [("x", .ofNat 1)]])]

/-- A condition on the item of a loop passes the checks and is asked of the data around the loop. -/
theorem check_loop_condition :
    ScopeFree (scan itemTemplate.toList) ∧ check itemTemplate (some itemData) = [] ∧
    .tag "#if this.x".toList ∈ scan itemTemplate.toList ∧
    Spelled "#if this.x".toList (.opens ⟨whenTrue, "this.x".toList⟩) ∧
    (∃ l ∈ lookups itemData (scan itemTemplate.toList), l.opening = ⟨whenTrue, "this.x".toList⟩ ∧
      l.scope.resolve? l.opening.path = none) := by
  have free : ScopeFree (scan itemTemplate.toList) := scopeFree_iff.2 (by decide +kernel)
  have asked : ⟨whenTrue, "this.x".toList⟩ ∈ (lookups itemData (scan itemTemplate.toList)).map Lookup.opening := by
    decide +kernel
  obtain ⟨l, listed, same⟩ := List.mem_map.1 asked
  have unknown : itemData.resolve? "this.x".toList = none := by decide +kernel
  refine ⟨free, by decide +kernel, by decide +kernel, spelled_iff.2 ⟨by decide +kernel, nofun⟩, l, listed,
    same, ?_⟩
  rw [same, free.scope_of_mem_lookups listed]
  exact unknown

end Prompt.Template
