import Prompt.Proofs.Template.Passes

/-!
# Scoped blocks over true scalars

A block over a true scalar keeps its body, and the pass over scoped blocks goes on behind it. The scoped
blocks in the body are therefore not expanded at all: no other pass looks at their tags, and cleaning
takes them out. So the body counts as if it had no such tags (`compile_true_scalar`), also where one of
them would have dropped what it holds (`compile_moodless`).
-/

namespace Prompt.Template

open BlockKind

/-! ### Tags of scoped blocks -/

def Piece.isScopeTag : Piece → Bool
  | text _ => false
  | tag inner =>
    match Directive.of inner with
    | .opens o => o.kind = within
    | .close name => !isReserved name
    | _ => false

/-- The pieces without the tags of scoped blocks. -/
def bare (ps : List Piece) : List Piece := ps.filter fun p => !p.isScopeTag

@[simp] theorem bare_nil : bare [] = [] := rfl

@[simp] theorem bare_append (ps qs : List Piece) : bare (ps ++ qs) = bare ps ++ bare qs :=
  List.filter_append ..

@[simp] theorem bare_text (chars : List Char) (ps : List Piece) :
    bare (.text chars :: ps) = .text chars :: bare ps := rfl

theorem bare_cons_pos {p : Piece} (scopes : p.isScopeTag = true) (ps : List Piece) :
    bare (p :: ps) = bare ps := by simp [bare, scopes]

theorem bare_cons_neg {p : Piece} (other : p.isScopeTag = false) (ps : List Piece) :
    bare (p :: ps) = p :: bare ps := by simp [bare, other]

theorem bare_flatMap {α : Type} (f : α → List Piece) (xs : List α) :
    bare (xs.flatMap f) = xs.flatMap fun x => bare (f x) := List.filter_flatMap ..

theorem bare_bare (ps : List Piece) : bare (bare ps) = bare ps := by simp [bare]

theorem bare_eq_flatMap (ps : List Piece) : bare ps = ps.flatMap fun p => bare [p] := by
  rw [← bare_flatMap, List.flatMap_singleton']

theorem bare_intercalate (sep : List Piece) (ls : List (List Piece)) :
    bare (sep.intercalate ls) = (bare sep).intercalate (ls.map bare) := by
  have parts := flatMap_intercalate (fun p => bare [p]) sep ls
  simpa only [← bare_eq_flatMap] using parts

theorem TidyPieces.bare {ps : List Piece} (tidy : TidyPieces ps) : TidyPieces (bare ps) :=
  fun p member => tidy p (List.mem_of_mem_filter member)

theorem eraseTags_bare (ps : List Piece) : eraseTags (bare ps) = eraseTags ps := by
  induction ps with
  | nil => rfl
  | cons p ps ih =>
      cases p with
      | text chars => rw [bare_text, eraseTags_text, eraseTags_text, ih]
      | tag inner =>
          cases scopes : (Piece.tag inner).isScopeTag with
          | true => rw [bare_cons_pos scopes, eraseTags_tag, ih]
          | false => rw [bare_cons_neg scopes, eraseTags_tag, eraseTags_tag, ih]

theorem isScopeTag_close {kind : BlockKind} {name : List Char} (named : kind.keyword? = some name) :
    (Piece.tag ('/' :: name)).isScopeTag = false := by
  cases kind <;> cases named <;> rfl

theorem isReserved_of_opening? {rest : List Char} {o : Opening} (found : opening? rest = some o)
    (sort : o.kind = within) : isReserved o.path = false := by
  simp only [opening?] at found
  split at found
  · next keyed =>
      cases found
      obtain ⟨kind, listed, answers⟩ := List.exists_of_findSome?_eq_some keyed
      obtain ⟨path, led, rfl⟩ := Option.map_eq_some_iff.1 answers
      cases sort
      exact absurd listed (by decide)
  · split at found
    · next named =>
        cases found
        simpa using (Bool.and_eq_true_iff.1 named).2
    · cases found

section Keyed
variable {kind : BlockKind} {inner : List Char}

theorem opening?_of_isScopeTag (keyed : kind ≠ within)
    (scopes : (Piece.tag inner).isScopeTag = true) : Directive.opening? kind inner = none := by
  rw [Directive.opening?]
  cases reads : Directive.of inner with
  | opens o =>
      have sort : o.kind = within := by simpa [Piece.isScopeTag, reads] using scopes
      exact if_neg fun own => keyed (own.symm.trans sort)
  | _ => rfl

theorem isScopeTag_of_opening? (keyed : kind ≠ within) {o : Opening}
    (opens : Directive.opening? kind inner = some o) : (Piece.tag inner).isScopeTag = false := by
  by_contra scopes
  rw [opening?_of_isScopeTag keyed (Bool.not_eq_false _ ▸ scopes)] at opens
  cases opens

theorem closeName_of_opening? {o : Opening} {name : List Char} (named : kind.keyword? = some name)
    (opens : Directive.opening? kind inner = some o) : o.closeName = name := by
  unfold Directive.opening? at opens
  split at opens
  · obtain ⟨sort, same⟩ := Option.ite_none_right_eq_some.1 opens
    rw [← Option.some.inj same, Opening.closeName, sort, named]
    rfl
  · cases opens

end Keyed

/-! ### Passes do not see them -/

section Blocks
variable {kind : BlockKind} {name : List Char} (named : kind.keyword? = some name)
include named

theorem splitAtClose?_bare (ps : List Piece) :
    splitAtClose? name (bare ps) = (splitAtClose? name ps).map fun q => (bare q.1, bare q.2) := by
  induction ps with
  | nil => rfl
  | cons p ps ih =>
      by_cases closes : p = .tag ('/' :: name)
      · subst closes
        rw [bare_cons_neg (isScopeTag_close named)]
        simp [splitAtClose?]
      · cases scopes : p.isScopeTag with
        | true =>
            rw [bare_cons_pos scopes, ih, splitAtClose?, if_neg closes, Option.map_map]
            refine Option.map_congr fun q _ => ?_
            simp [bare_cons_pos scopes]
        | false =>
            rw [bare_cons_neg scopes, splitAtClose?, splitAtClose?, if_neg closes, if_neg closes, ih,
              Option.map_map, Option.map_map]
            refine Option.map_congr fun q _ => ?_
            simp [bare_cons_neg scopes]

def Segment.bare : Segment → List Segment
  | piece p => if p.isScopeTag then [] else [piece p]
  | block inner o body => [block inner o (Template.bare body)]

theorem blocks_bare (ps : List Piece) :
    blocks (Directive.opening? kind) (bare ps) =
      (blocks (Directive.opening? kind) ps).flatMap Segment.bare := by
  have keyed : kind ≠ within := by
    rintro rfl
    cases named
  fun_induction blocks (Directive.opening? kind) ps with
  | case1 => rw [bare_nil, blocks, List.flatMap_nil]
  | case2 chars rest ih =>
      rw [bare_text, blocks_text, ih]
      rfl
  | case3 inner rest other ih =>
      cases scopes : (Piece.tag inner).isScopeTag with
      | true => simp [bare_cons_pos scopes, ih, Segment.bare, scopes]
      | false => simp [bare_cons_neg scopes, blocks_tag other, ih, Segment.bare, scopes]
  | case4 inner rest o opens unclosed ih =>
      have split := splitAtClose?_bare named rest
      rw [← closeName_of_opening? named opens, unclosed] at split
      have kept := isScopeTag_of_opening? keyed opens
      simp [bare_cons_neg kept, blocks_unclosed opens split, ih, Segment.bare, kept]
  | case5 inner rest o opens body after closes ih =>
      have split := splitAtClose?_bare named rest
      rw [← closeName_of_opening? named opens, closes] at split
      rw [bare_cons_neg (isScopeTag_of_opening? keyed opens), blocks_block opens split, ih]
      rfl

theorem bare_fillBlocks {render : List Char → List Piece → List Piece}
    (bodies : ∀ path body, bare (render path body) = render path (bare body)) (ps : List Piece) :
    bare (fillBlocks kind render ps) = fillBlocks kind render (bare ps) := by
  rw [fillBlocks, overBlocks, overBlocks, bare_flatMap, blocks_bare named, List.flatMap_assoc]
  refine flatMap_congr fun segment _ => ?_
  cases segment with
  | piece p => cases scopes : p.isScopeTag <;> simp [Segment.bare, bare, scopes]
  | block inner o body => simp [Segment.bare, bodies]

theorem filledBlocks_bare {values : List Char → List Piece → List (List Char)}
    (bodies : ∀ path body, values path (bare body) = values path body) (ps : List Piece) :
    filledBlocks kind values (bare ps) = filledBlocks kind values ps := by
  rw [filledBlocks, overBlocks, overBlocks, blocks_bare named, List.flatMap_assoc]
  refine flatMap_congr fun segment _ => ?_
  cases segment with
  | piece p => cases scopes : p.isScopeTag <;> simp [Segment.bare, scopes]
  | block inner o body => simp [Segment.bare, bodies]

end Blocks

section Tags
variable {f : List Char → Option (List Char)}
  (blind : ∀ inner, (Piece.tag inner).isScopeTag = true → f inner = none)
include blind

theorem bare_fillTags (ps : List Piece) : bare (fillTags f ps) = fillTags f (bare ps) := by
  induction ps with
  | nil => rfl
  | cons p ps ih =>
      rw [fillTags, List.map_cons, ← fillTags]
      cases scopes : p.isScopeTag with
      | true =>
          have same : p.fill f = p := by
            cases p with
            | text chars => rfl
            | tag inner => rw [Piece.fill, blind inner scopes]
          rw [same, bare_cons_pos scopes, bare_cons_pos scopes, ih]
      | false =>
          have kept : (p.fill f).isScopeTag = false := by
            cases p with
            | text chars => rfl
            | tag inner =>
                rw [Piece.fill]
                split
                · rfl
                · exact scopes
          rw [bare_cons_neg kept, bare_cons_neg scopes, ih]
          rfl

theorem filled_bare (ps : List Piece) : filled f (bare ps) = filled f ps := by
  induction ps with
  | nil => rfl
  | cons p ps ih =>
      cases p with
      | text chars => rw [bare_text, filled_text, filled_text, ih]
      | tag inner =>
          cases scopes : (Piece.tag inner).isScopeTag with
          | true => rw [bare_cons_pos scopes, filled_tag, blind inner scopes, ih]; rfl
          | false => rw [bare_cons_neg scopes, filled_tag, filled_tag, ih]

end Tags

theorem iterationValue?_of_sign {c : Char} (sign : c = '#' ∨ c = '/') (item : Json) (index : Nat)
    (rest : List Char) : iterationValue? item index (c :: rest) = none := by
  have inked : Text.isBlank c = false := by rcases sign with rfl | rfl <;> decide
  have starts : Text.trim (c :: rest) <+: c :: rest := by
    have kept : Text.trimStart (c :: rest) = c :: rest := List.dropWhile_cons_of_neg (by simp [inked])
    rw [Text.trim, kept]
    exact trimEnd_starts _
  have other : ∀ a key, Text.trim (c :: rest) = a :: key → a = '#' ∨ a = '/' := by
    intro a key same
    rw [same, List.cons_prefix_cons] at starts
    exact starts.1 ▸ sign
  unfold iterationValue?
  rw [if_neg fun same => absurd (other _ _ same) (by decide),
    if_neg fun same => absurd (other _ _ same) (by decide), Option.map_eq_none_iff,
    Option.eq_none_iff_forall_not_mem]
  intro field found
  exact absurd (other _ _ (Text.after?_eq_some_iff.1 found)) (by decide)

theorem iterationValue?_of_isScopeTag (item : Json) (index : Nat) (inner : List Char)
    (scopes : (Piece.tag inner).isScopeTag = true) : iterationValue? item index inner = none := by
  unfold Piece.isScopeTag at scopes
  cases reads : Directive.of inner with
  | opens o =>
      obtain ⟨rest, rfl, -⟩ := Directive.of_eq_opens reads
      exact iterationValue?_of_sign (.inl rfl) item index rest
  | close name =>
      rw [Directive.of_eq_close reads]
      exact iterationValue?_of_sign (.inr rfl) item index name
  | _ => simp [reads] at scopes

theorem plainValue?_of_isScopeTag (data : Json) (inner : List Char)
    (scopes : (Piece.tag inner).isScopeTag = true) : plainValue? data inner = none := by
  rw [plainValue?, Directive.path?]
  split
  · next reads => simp [Piece.isScopeTag, reads] at scopes
  · rfl

section Flat
variable (data : Json) (ps : List Piece)

theorem bare_keepPieces {kind : BlockKind} {name : List Char} (named : kind.keyword? = some name)
    (wanted : Bool) : bare (keepPieces kind wanted data ps) = keepPieces kind wanted data (bare ps) :=
  bare_fillBlocks named (fun path body => by split <;> rfl) ps

theorem bare_keptPieces : bare (keptPieces data ps) = keptPieces data (bare ps) := by
  rw [keptPieces, keptPieces, bare_keepPieces _ _ rfl, bare_keepPieces _ _ rfl]

theorem bare_iterate (path : List Char) (body : List Piece) :
    bare (iterate data path body) = iterate data path (bare body) := by
  rw [iterate, iterate, bare_intercalate, List.map_map]
  refine congrArg _ (List.map_congr_left fun binding _ => ?_)
  exact bare_fillTags (iterationValue?_of_isScopeTag binding.item binding.index) body

theorem bare_loopedPieces : bare (loopedPieces data ps) = loopedPieces data (bare ps) := by
  rw [loopedPieces, loopedPieces, bare_fillBlocks rfl (bare_iterate data), bare_keptPieces]

theorem bare_flatPieces : bare (flatPieces data ps) = flatPieces data (bare ps) := by
  rw [flatPieces, flatPieces, bare_fillTags (plainValue?_of_isScopeTag data), bare_loopedPieces]

theorem loopValues_bare : loopValues data (bare ps) = loopValues data ps := by
  rw [loopValues, loopValues, ← bare_keptPieces]
  refine filledBlocks_bare rfl (fun path body => flatMap_congr fun binding _ => ?_) _
  exact filled_bare (iterationValue?_of_isScopeTag binding.item binding.index) body

theorem lastValues_bare : lastValues data (bare ps) = lastValues data ps := by
  rw [lastValues, lastValues, ← bare_loopedPieces, filled_bare (plainValue?_of_isScopeTag data)]

end Flat

/-! ### Trees -/

namespace Markup

/-- The stretches that a pass finds in the pieces of a tree. -/
def segments (kind : BlockKind) : Markup → List Segment
  | done => []
  | text words rest => .piece (.text words.chars) :: rest.segments kind
  | value tag rest => .piece (.tag tag.inner) :: rest.segments kind
  | block tag body rest =>
    (if tag.kind = kind then [.block tag.inner tag.opening body.pieces]
    else .piece (.tag tag.inner) :: (body.segments kind ++ [.piece tag.close])) ++ rest.segments kind

theorem blocks_pieces (kind : BlockKind) {m : Markup} (distinct : m.Distinct) (follow : List Piece) :
    blocks (Directive.opening? kind) (m.pieces ++ follow) =
      m.segments kind ++ blocks (Directive.opening? kind) follow := by
  induction m generalizing follow with
  | done => rfl
  | text words rest ih => rw [pieces, List.cons_append, blocks_text, ih distinct, segments]; rfl
  | value tag rest ih =>
      rw [pieces, List.cons_append, blocks_tag (tag.opening?_eq kind), ih distinct, segments]
      rfl
  | block tag body rest bodyIh restIh =>
      obtain ⟨apart, inside, behind⟩ := distinct
      have opens := tag.opening?_eq kind
      rw [pieces, List.cons_append, List.append_assoc, List.cons_append, segments]
      by_cases own : tag.kind = kind
      · rw [if_pos own] at opens ⊢
        -- The first tag that closes the block is its own.
        have absent : .tag ('/' :: tag.closeName) ∉ body.pieces := fun left =>
          apart (closeName_mem 0 (.obj []) none (by rwa [residue_zero]))
        have closes : splitAtClose? tag.opening.closeName
            (body.pieces ++ tag.close :: (rest.pieces ++ follow)) =
              some (body.pieces, rest.pieces ++ follow) := splitAtClose?_append _ absent
        rw [blocks_block opens closes, restIh behind]
        rfl
      · rw [if_neg own] at opens ⊢
        have closing : Directive.opening? kind ('/' :: tag.closeName) = none := rfl
        rw [blocks_tag opens, bodyIh inside, BlockTag.close, blocks_tag closing, restIh behind]
        simp

theorem blocks_eq_segments (kind : BlockKind) {m : Markup} (distinct : m.Distinct) :
    blocks (Directive.opening? kind) m.pieces = m.segments kind := by
  have alone := blocks_pieces kind distinct []
  rwa [List.append_nil, blocks, List.append_nil] at alone

theorem of_mem_segments {kind : BlockKind} {P : BlockTag → Markup → Prop} {m : Markup}
    (every : m.EveryBlock kind P) {inner : List Char} {o : Opening} {ps : List Piece}
    (listed : .block inner o ps ∈ m.segments kind) : ∃ tag body, o = tag.opening ∧ P tag body := by
  induction m with
  | done => cases listed
  | text words rest ih => exact ih every (by simpa [segments] using listed)
  | value tag rest ih => exact ih every (by simpa [segments] using listed)
  | block tag body rest bodyIh restIh =>
      obtain ⟨here, behind⟩ := every
      rcases List.mem_append.1 listed with inside | listed
      · by_cases own : tag.kind = kind
        · rw [if_pos own] at inside here
          cases List.mem_singleton.1 inside
          exact ⟨tag, body, rfl, here⟩
        · rw [if_neg own] at inside here
          exact bodyIh here (by simpa using inside)
      · exact restIh behind listed

section Before
variable (kind : BlockKind) {m : Markup} (distinct : m.Distinct) (follow : List Piece)
include distinct

theorem overBlocks_pieces {α : Type} (keep : Piece → List α)
    (render : List Char → List Piece → List α) :
    overBlocks kind keep render (m.pieces ++ follow) =
      overBlocks kind keep render m.pieces ++ overBlocks kind keep render follow := by
  simp only [overBlocks, blocks_pieces kind distinct, blocks_eq_segments kind distinct,
    List.flatMap_append]

end Before

end Markup

/-! ### The pass over scoped blocks -/

theorem scopesOf_of_isTrueScalar {value : Option Json} (scalar : isTrueScalar value = true)
    (scope : Json) : scopesOf scope value = [] := by
  cases value with
  | none => rfl
  | some j =>
      cases j with
      | arr items => simp [isTrueScalar, Json.isArray, Json.asItems?] at scalar
      | obj fields => simp [isTrueScalar, Json.isObject, Json.asEntries?] at scalar
      | _ => rfl

section Scalar
variable {data : Json} {path : List Char} (scalar : isTrueScalar (data.resolve? path) = true)
  (body : List Piece)
include scalar

theorem scopePieces_of_isTrueScalar : scopePieces data path body = body := if_pos scalar

theorem scopeValues_of_isTrueScalar : scopeValues data path body = [] := by
  rw [scopeValues, scopesOf_of_isTrueScalar scalar, List.flatMap_nil]

end Scalar

theorem blocks_within_bare (ps follow : List Piece) :
    blocks (Directive.opening? within) (bare ps ++ follow) =
      (bare ps).map .piece ++ blocks (Directive.opening? within) follow := by
  induction ps with
  | nil => rfl
  | cons p ps ih =>
      cases scopes : p.isScopeTag with
      | true => rw [bare_cons_pos scopes, ih]
      | false =>
          rw [bare_cons_neg scopes, List.cons_append, List.map_cons, List.cons_append, ← ih]
          cases p with
          | text chars => rw [blocks_text]
          | tag inner =>
              refine blocks_tag ?_
              rw [Directive.opening?]
              cases reads : Directive.of inner with
              | opens o => exact if_neg (by simpa [Piece.isScopeTag, reads] using scopes)
              | _ => rfl

theorem overBlocks_within_bare {α : Type} (keep : Piece → List α)
    (render : List Char → List Piece → List α) (ps follow : List Piece) :
    overBlocks within keep render (bare ps ++ follow) =
      (bare ps).flatMap keep ++ overBlocks within keep render follow := by
  simp only [overBlocks, blocks_within_bare, List.flatMap_append, List.flatMap_map]

/-- The tags of scoped blocks that the pass over scoped blocks leaves do not matter. -/
theorem compileChars_of_bare {data : Json} {ps qs : List Piece} (tidy : TidyPieces ps)
    (tidy' : TidyPieces qs) (opened : bare (openPieces data ps) = bare (openPieces data qs))
    (values : filledBlocks within (scopeValues data) ps = filledBlocks within (scopeValues data) qs)
    (inert : ∀ chars ∈ inserted data ps, Inert chars) :
    compileChars (source ps) data = compileChars (source qs) data := by
  have loops : loopValues data (openPieces data ps) = loopValues data (openPieces data qs) := by
    rw [← loopValues_bare, opened, loopValues_bare]
  have lasts : lastValues data (openPieces data ps) = lastValues data (openPieces data qs) := by
    rw [← lastValues_bare, opened, lastValues_bare]
  have put : inserted data ps = inserted data qs := by
    rw [inserted_eq, inserted_eq, earlyValues, earlyValues, values, loops, lasts]
  have erased : eraseTags (expandPieces data ps) = eraseTags (expandPieces data qs) := by
    rw [expandPieces_eq, expandPieces_eq, ← eraseTags_bare, bare_flatPieces, opened,
      ← bare_flatPieces, eraseTags_bare]
  rw [compileChars_source tidy inert, compileChars_source tidy' (put ▸ inert), erased]

theorem isScopeTag_of_opens {inner : List Char} {o : Opening}
    (opens : Directive.opening? within inner = some o) :
    (Piece.tag inner).isScopeTag = true ∧ (Piece.tag ('/' :: o.closeName)).isScopeTag = true := by
  unfold Directive.opening? at opens
  split at opens
  · next reads =>
      obtain ⟨sort, same⟩ := Option.ite_none_right_eq_some.1 opens
      cases same
      obtain ⟨rest, rfl, found⟩ := Directive.of_eq_opens reads
      have free := isReserved_of_opening? found sort
      refine ⟨by simp [Piece.isScopeTag, reads, sort], ?_⟩
      rw [Opening.closeName, sort]
      exact congrArg not free
  · cases opens

/-- Every block that the pass over scoped blocks finds stands over a true scalar. -/
def Steady (data : Json) (ps : List Piece) : Prop :=
  ∀ inner o body, .block inner o body ∈ blocks (Directive.opening? within) ps →
    isTrueScalar (data.resolve? o.path) = true

section Steady
variable {data : Json} {ps : List Piece} (steady : Steady data ps)
include steady

theorem bare_openPieces_of_steady : bare (openPieces data ps) = bare ps := by
  rw [openPieces, fillBlocks, overBlocks, bare_flatMap]
  conv => rhs; rw [← pieces_blocks (Directive.opening? within) ps, bare_flatMap]
  refine flatMap_congr fun segment listed => ?_
  cases segment with
  | piece p => rfl
  | block inner o body =>
      obtain ⟨opens, closes⟩ := isScopeTag_of_opens (opener_of_mem_blocks listed)
      rw [Segment.pieces, bare_cons_pos opens, bare_append, bare_cons_pos closes, bare_nil,
        List.append_nil]
      exact congrArg bare (scopePieces_of_isTrueScalar (steady inner o body listed) body)

theorem scopeValues_of_steady : filledBlocks within (scopeValues data) ps = [] := by
  refine List.flatMap_eq_nil_iff.2 fun segment listed => ?_
  cases segment with
  | piece p => rfl
  | block inner o body => exact scopeValues_of_isTrueScalar (steady inner o body listed) body

end Steady

namespace Markup

section Block
variable {body rest : Markup} {tag : BlockTag} {data : Json} (sort : tag.kind = within)
  (distinct : (block tag body rest).Distinct)
include sort distinct

theorem blocks_block_pieces : blocks (Directive.opening? within) (block tag body rest).pieces =
    .block tag.inner tag.opening body.pieces :: blocks (Directive.opening? within) rest.pieces := by
  rw [blocks_eq_segments within distinct, blocks_eq_segments within distinct.2.2, segments,
    if_pos sort]
  rfl

theorem openPieces_block (scalar : isTrueScalar (data.resolve? tag.path) = true) :
    openPieces data (block tag body rest).pieces = body.pieces ++ openPieces data rest.pieces := by
  rw [openPieces, fillBlocks, overBlocks, blocks_block_pieces sort distinct, List.flatMap_cons]
  exact congrArg (· ++ _) (scopePieces_of_isTrueScalar scalar body.pieces)

theorem scopeValues_block (scalar : isTrueScalar (data.resolve? tag.path) = true) :
    filledBlocks within (scopeValues data) (block tag body rest).pieces =
      filledBlocks within (scopeValues data) rest.pieces := by
  rw [filledBlocks, overBlocks, blocks_block_pieces sort distinct, List.flatMap_cons]
  exact congrArg (· ++ _) (scopeValues_of_isTrueScalar scalar body.pieces)

end Block

section Around
variable {start body rest : Markup} {tag : BlockTag} {data : Json} (sort : tag.kind = within)
  (scalar : isTrueScalar (data.resolve? tag.path) = true) (before : start.Distinct)
  (distinct : (block tag body rest).Distinct)
  (inert : ∀ chars ∈ inserted data (start.pieces ++ (block tag body rest).pieces), Inert chars)
include sort scalar before distinct inert

/-- What stands in the place of the block has to come to the pieces of its body and to put in nothing. -/
theorem compileChars_around {middle : List Piece} (tidy : TidyPieces middle)
    (opened : bare (openPieces data (middle ++ rest.pieces)) =
      bare body.pieces ++ bare (openPieces data rest.pieces))
    (values : filledBlocks within (scopeValues data) (middle ++ rest.pieces) =
      filledBlocks within (scopeValues data) rest.pieces) :
    compileChars (start.print ++ (block tag body rest).print) data =
      compileChars (start.print ++ source middle ++ rest.print) data := by
  have tidyBlock : TidyPieces (start.pieces ++ (block tag body rest).pieces) :=
    tidyPieces_append.2 ⟨start.plain_pieces.tidy, (block tag body rest).plain_pieces.tidy⟩
  have tidyMiddle : TidyPieces (start.pieces ++ (middle ++ rest.pieces)) :=
    tidyPieces_append.2 ⟨start.plain_pieces.tidy,
      tidyPieces_append.2 ⟨tidy, rest.plain_pieces.tidy⟩⟩
  have bareBlock : bare (openPieces data (block tag body rest).pieces) =
      bare (openPieces data (middle ++ rest.pieces)) := by
    rw [openPieces_block sort distinct scalar, bare_append, opened]
  have whole : compileChars (source (start.pieces ++ (block tag body rest).pieces)) data =
      compileChars (source (start.pieces ++ (middle ++ rest.pieces))) data := by
    refine compileChars_of_bare tidyBlock tidyMiddle ?_ ?_ inert
    · rw [openPieces, openPieces, fillBlocks, overBlocks_pieces within before,
        overBlocks_pieces within before, bare_append, bare_append]
      exact congrArg _ bareBlock
    · rw [filledBlocks, overBlocks_pieces within before, overBlocks_pieces within before]
      exact congrArg _ ((scopeValues_block sort distinct scalar).trans values.symm)
  rwa [source_append, source_append, source_append, ← List.append_assoc] at whole

theorem compileChars_unwrapped :
    compileChars (start.print ++ (block tag body rest).print) data =
      compileChars (start.print ++ source (bare body.pieces) ++ rest.print) data := by
  refine compileChars_around sort scalar before distinct inert body.plain_pieces.tidy.bare ?_ ?_
  · rw [openPieces, fillBlocks, overBlocks_within_bare, List.flatMap_singleton', bare_append, bare_bare]
    rfl
  · rw [filledBlocks, overBlocks_within_bare, List.flatMap_eq_nil_iff.2 fun _ _ => rfl, List.nil_append]

theorem compileChars_transparent
    (scalars : body.EveryBlock within fun tag _ => isTrueScalar (data.resolve? tag.path) = true) :
    compileChars (start.print ++ (block tag body rest).print) data =
      compileChars (start.print ++ body.print ++ rest.print) data := by
  have inside : body.Distinct := distinct.2.1
  have steady : Steady data body.pieces := by
    intro inner o ps listed
    rw [blocks_eq_segments within inside] at listed
    obtain ⟨tag, -, rfl, scalar⟩ := of_mem_segments scalars listed
    exact scalar
  refine compileChars_around sort scalar before distinct inert body.plain_pieces.tidy ?_ ?_
  · rw [openPieces, fillBlocks, overBlocks_pieces within inside, bare_append]
    exact congrArg (· ++ _) (bare_openPieces_of_steady steady)
  · rw [filledBlocks, overBlocks_pieces within inside]
    exact congrArg (· ++ _) (scopeValues_of_steady steady)

end Around

end Markup

/-- A scoped block over a true scalar is its body without the tags of scoped blocks. It is the body itself
as long as the scoped blocks of the body, other than those inside another one, stand over true scalars,
too. -/
theorem compile_true_scalar (start body rest : Markup) (tag : BlockTag) (data : Json)
    (sort : tag.kind = within) (scalar : isTrueScalar (data.resolve? tag.path) = true)
    (before : start.Distinct) (distinct : (Markup.block tag body rest).Distinct)
    (inert : ∀ chars ∈ inserted data (start.pieces ++ (Markup.block tag body rest).pieces),
      Inert chars) :
    compile (String.ofList (start.print ++ (Markup.block tag body rest).print)) data =
      compile (String.ofList (start.print ++ source (bare body.pieces) ++ rest.print)) data ∧
    ((body.EveryBlock within fun tag _ => isTrueScalar (data.resolve? tag.path) = true) →
      compile (String.ofList (start.print ++ (Markup.block tag body rest).print)) data =
        compile (String.ofList (start.print ++ body.print ++ rest.print)) data) := by
  refine ⟨?_, fun scalars => ?_⟩
  · rw [compile, compile, String.toList_ofList, String.toList_ofList,
      Markup.compileChars_unwrapped sort scalar before distinct inert]
  · rw [compile, compile, String.toList_ofList, String.toList_ofList,
      Markup.compileChars_transparent sort scalar before distinct inert scalars]

def flag : BlockTag := ⟨"#flag".toList, ⟨within, "flag".toList⟩, by decide⟩

def mood : BlockTag := ⟨"#mood".toList, ⟨within, "mood".toList⟩, by decide⟩

def greeting : Markup :=
  .block mood (.text ⟨"dear ".toList, by decide⟩ .done) <|
    .value ⟨"pupil".toList, "pupil".toList, by decide⟩ .done

theorem distinct_greeting : (Markup.block flag greeting .done).Distinct :=
  ⟨by decide, ⟨by decide, trivial, trivial⟩, trivial⟩

def cheerful : Json := .obj [("flag", .bool true), ("mood", .str "good"), ("pupil", .str "Ada")]

theorem compile_greeting :
    (greeting.EveryBlock within fun tag _ => isTrueScalar (cheerful.resolve? tag.path) = true) ∧
    (∀ chars ∈ inserted cheerful (Markup.block flag greeting .done).pieces, Inert chars) ∧
    compile (String.ofList greeting.print) cheerful = "dear Ada" ∧
    compile (String.ofList (Markup.block flag greeting .done).print) cheerful = "dear Ada" := by
  have scalars : greeting.EveryBlock within fun tag _ =>
      isTrueScalar (cheerful.resolve? tag.path) = true := ⟨rfl, trivial⟩
  have values : inserted cheerful (Markup.block flag greeting .done).pieces = ["Ada".toList] := by
    decide +kernel
  have inert : ∀ chars ∈ inserted cheerful (Markup.block flag greeting .done).pieces,
      Inert chars := by
    rw [values]
    decide
  have plain : compile (String.ofList greeting.print) cheerful = "dear Ada" := by decide +kernel
  have law := (compile_true_scalar .done greeting .done flag cheerful rfl rfl trivial
    distinct_greeting inert).2 scalars
  have alone : Markup.done.print ++ greeting.print ++ Markup.done.print = greeting.print :=
    List.append_nil _
  rw [alone, plain] at law
  exact ⟨scalars, inert, plain, law⟩

def moodless : Json := .obj [("flag", .bool true), ("pupil", .str "Ada")]

/-- The block over the missing mood is kept inside the other one. -/
theorem compile_moodless :
    isTrueScalar (moodless.resolve? flag.path) = true ∧
    (Markup.block flag greeting .done).Distinct ∧
    (∀ chars ∈ inserted moodless (Markup.block flag greeting .done).pieces, Plain chars) ∧
    compile (String.ofList (Markup.block flag greeting .done).print) moodless = "dear Ada" ∧
    compile (String.ofList greeting.print) moodless = "Ada" := by
  have values : inserted moodless (Markup.block flag greeting .done).pieces = ["Ada".toList] := by
    decide +kernel
  refine ⟨rfl, distinct_greeting, ?_, by decide +kernel, by decide +kernel⟩
  rw [values]
  decide

end Prompt.Template
