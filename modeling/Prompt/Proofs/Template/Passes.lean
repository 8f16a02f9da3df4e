import Prompt.Proofs.Template.Meaning

/-!
# Passes on pieces

A pass makes text of pieces, and the next one scans that text. The passes here make pieces of pieces: a
value that is put in is a text, and a tag that stays is a tag. As long as the values begin no tag of their
own, this comes to the same (`expand_eq_source`), so that all tags that any pass meets are tags of the
template.
-/

namespace Prompt.Template

open BlockKind

def Piece.fill (f : List Char → Option (List Char)) : Piece → Piece
  | text chars => text chars
  | tag inner =>
    match f inner with
    | some chars => text chars
    | none => tag inner

def fillTags (f : List Char → Option (List Char)) (ps : List Piece) : List Piece :=
  ps.map (Piece.fill f)

def filled (f : List Char → Option (List Char)) (ps : List Piece) : List (List Char) :=
  ps.filterMap fun
    | .text _ => none
    | .tag inner => f inner

@[simp] theorem filled_text (f : List Char → Option (List Char)) (chars : List Char)
    (ps : List Piece) : filled f (.text chars :: ps) = filled f ps := rfl

@[simp] theorem filled_tag (f : List Char → Option (List Char)) (inner : List Char)
    (ps : List Piece) : filled f (.tag inner :: ps) = (f inner).toList ++ filled f ps := by
  cases found : f inner <;> simp [filled, found]

def overBlocks {α : Type} (kind : BlockKind) (keep : Piece → List α)
    (render : List Char → List Piece → List α) (ps : List Piece) : List α :=
  (blocks (Directive.opening? kind) ps).flatMap fun
    | .piece p => keep p
    | .block _ o body => render o.path body

def fillBlocks (kind : BlockKind) (render : List Char → List Piece → List Piece) :
    List Piece → List Piece := overBlocks kind (fun p => [p]) render

def filledBlocks (kind : BlockKind) (values : List Char → List Piece → List (List Char)) :
    List Piece → List (List Char) := overBlocks kind (fun _ => []) values

/-! ### The passes of a scope

Beside each pass, the texts that it puts in. -/

def keepPieces (kind : BlockKind) (wanted : Bool) (data : Json) (ps : List Piece) : List Piece :=
  fillBlocks kind
    (fun path body => if Json.isTruthy? (data.resolve? path) = wanted then body else []) ps

def iterate (data : Json) (path : List Char) (body : List Piece) : List Piece :=
  [.text ['\n']].intercalate ((bindingsOf (data.resolve? path)).map fun binding =>
    fillTags (iterationValue? binding.item binding.index) body)

def iterated (data : Json) (path : List Char) (body : List Piece) : List (List Char) :=
  (bindingsOf (data.resolve? path)).flatMap fun binding =>
    filled (iterationValue? binding.item binding.index) body

def plainValue? (data : Json) (inner : List Char) : Option (List Char) :=
  (Directive.path? inner).map fun path => Json.display? (data.resolve? path)

def keptPieces (data : Json) (ps : List Piece) : List Piece :=
  keepPieces whenFalse false data (keepPieces whenTrue true data ps)

def loopedPieces (data : Json) (ps : List Piece) : List Piece :=
  fillBlocks forEach (iterate data) (keptPieces data ps)

def flatPieces (data : Json) (ps : List Piece) : List Piece :=
  fillTags (plainValue? data) (loopedPieces data ps)

def loopValues (data : Json) (ps : List Piece) : List (List Char) :=
  filledBlocks forEach (iterated data) (keptPieces data ps)

def lastValues (data : Json) (ps : List Piece) : List (List Char) :=
  filled (plainValue? data) (loopedPieces data ps)

/-! ### Scopes inside scopes -/

def expandPieces (data : Json) (ps : List Piece) : List Piece :=
  flatPieces data ((blocks (Directive.opening? within) ps).attach.flatMap fun segment =>
    match _h : segment.val with
    | .piece p => [p]
    | .block _ o body =>
      if isTrueScalar (data.resolve? o.path) then body
      else (scopesOf data (data.resolve? o.path)).flatMap fun scope => expandPieces scope body)
termination_by ps.length
decreasing_by exact length_body_lt (_h ▸ segment.property)

def scopePieces (data : Json) (path : List Char) (body : List Piece) : List Piece :=
  if isTrueScalar (data.resolve? path) then body
  else (scopesOf data (data.resolve? path)).flatMap fun scope => expandPieces scope body

def openPieces (data : Json) (ps : List Piece) : List Piece :=
  fillBlocks within (scopePieces data) ps

/-- All texts that are put in while pieces are expanded, those of the scopes inside among them. -/
def inserted (data : Json) (ps : List Piece) : List (List Char) :=
  ((blocks (Directive.opening? within) ps).attach.flatMap fun segment =>
    match _h : segment.val with
    | .piece _ => []
    | .block _ o body =>
      (scopesOf data (data.resolve? o.path)).flatMap fun scope => inserted scope body) ++
    loopValues data (openPieces data ps) ++ lastValues data (openPieces data ps)
termination_by ps.length
decreasing_by exact length_body_lt (_h ▸ segment.property)

def scopeValues (data : Json) (path : List Char) (body : List Piece) : List (List Char) :=
  (scopesOf data (data.resolve? path)).flatMap fun scope => inserted scope body

/-- The texts that are put in by scopes and by loops, before the pass over values, which scans them. -/
def earlyValues (data : Json) (ps : List Piece) : List (List Char) :=
  filledBlocks within (scopeValues data) ps ++ loopValues data (openPieces data ps)

theorem expandPieces_eq (data : Json) (ps : List Piece) :
    expandPieces data ps = flatPieces data (openPieces data ps) := by
  rw [expandPieces]
  congr 1
  conv => rhs; rw [openPieces, fillBlocks, overBlocks, ← List.attach_map_subtype_val (blocks _ ps), List.flatMap_map]
  congr 1
  funext segment
  obtain ⟨segment, member⟩ := segment
  cases segment with
  | piece p => rfl
  | block inner o body => rfl

theorem inserted_eq (data : Json) (ps : List Piece) :
    inserted data ps = earlyValues data ps ++ lastValues data (openPieces data ps) := by
  rw [inserted, earlyValues]
  congr 2
  conv => rhs; rw [filledBlocks, overBlocks, ← List.attach_map_subtype_val (blocks _ ps), List.flatMap_map]
  congr 1
  funext segment
  obtain ⟨segment, member⟩ := segment
  cases segment with
  | piece p => rfl
  | block inner o body => rfl

/-! ### Their text -/

@[simp] theorem source_fillTags (f : List Char → Option (List Char)) (ps : List Piece) :
    source (fillTags f ps) = replaceTags f ps := by
  rw [source, fillTags, List.flatMap_map, replaceTags]
  congr 1
  funext p
  cases p with
  | text chars => rfl
  | tag inner => cases found : f inner <;> simp [Piece.fill, Piece.source, found]

@[simp] theorem source_fillBlocks (kind : BlockKind) (render : List Char → List Piece → List Piece)
    (ps : List Piece) : source (fillBlocks kind render ps) =
      replaceBlocks kind (fun path body => source (render path body)) ps := by
  rw [source, fillBlocks, overBlocks, List.flatMap_assoc, replaceBlocks]
  congr 1
  funext segment
  cases segment with
  | piece p => simp
  | block inner o body => rfl

theorem source_keepPieces (kind : BlockKind) (wanted : Bool) (data : Json) (ps : List Piece) :
    source (keepPieces kind wanted data ps) = keepWhen kind wanted data ps := by
  rw [keepPieces, source_fillBlocks, keepWhen]
  congr 1
  funext path body
  split <;> rfl

theorem source_iterate (data : Json) (ps : List Piece) :
    source (fillBlocks forEach (iterate data) ps) = repeatEach data ps := by
  rw [source_fillBlocks, repeatEach]
  congr 1
  funext path body
  rw [iterate, source, flatMap_intercalate, List.map_map]
  cases data.resolve? path with
  | none => rfl
  | some value =>
      cases value with
      | arr items =>
          rw [bindingsOf, List.map_map]
          refine congrArg _ (List.map_congr_left fun item _ => ?_)
          exact source_fillTags _ body
      | _ => rfl

/-! ### What a pass looks at -/

theorem flatMap_congr {α β : Type} {f g : α → List β} {xs : List α} (same : ∀ x ∈ xs, f x = g x) :
    xs.flatMap f = xs.flatMap g := congrArg List.flatten (List.map_congr_left same)

theorem overBlocks_congr {α : Type} {kind : BlockKind} {ps : List Piece} {keep : Piece → List α}
    {render render' : List Char → List Piece → List α}
    (same : ∀ inner o body, .block inner o body ∈ blocks (Directive.opening? kind) ps →
      render o.path body = render' o.path body) :
    overBlocks kind keep render ps = overBlocks kind keep render' ps := by
  refine flatMap_congr fun segment listed => ?_
  cases segment with
  | piece p => rfl
  | block inner o body => exact same inner o body listed

theorem replaceBlocks_eq (kind : BlockKind) (render : List Char → List Piece → List Char)
    (ps : List Piece) : replaceBlocks kind render ps = overBlocks kind Piece.source render ps := rfl

theorem isTrueScalar_some {value : Json} (unlisted : value.isArray = false)
    (unkeyed : value.isObject = false) : isTrueScalar (some value) = value.isTruthy := by
  simp [isTrueScalar, unlisted, unkeyed]

theorem scopedText_eq (data : Json) (path : List Char) (body : List Piece) :
    scopedText data path body = if isTrueScalar (data.resolve? path) then source body
      else (scopesOf data (data.resolve? path)).flatMap fun scope => expand scope body := by
  rw [scopedText]
  cases data.resolve? path with
  | none => rfl
  | some value =>
      cases value with
      | arr items => simp [isTrueScalar, scopesOf, List.flatMap_map, Json.isArray, Json.asItems?]
      | obj fields =>
          simp only [isTrueScalar, scopesOf, Json.isObject, Json.asEntries?]
          split <;> simp
      | _ =>
          rw [isTrueScalar_some rfl rfl]
          rfl

/-! ### Where pieces come from -/

def Segment.pieces : Segment → List Piece
  | piece p => [p]
  | block inner o body => .tag inner :: (body ++ [.tag ('/' :: o.closeName)])

theorem pieces_blocks (opener : List Char → Option Opening) (ps : List Piece) :
    (blocks opener ps).flatMap Segment.pieces = ps := by
  fun_induction blocks opener ps with
  | case1 => rfl
  | case2 chars rest ih => rw [List.flatMap_cons, ih]; rfl
  | case3 inner rest other ih => rw [List.flatMap_cons, ih]; rfl
  | case4 inner rest o opens unclosed ih => rw [List.flatMap_cons, ih]; rfl
  | case5 inner rest o opens body after closes ih =>
      rw [List.flatMap_cons, ih, eq_of_splitAtClose? closes]
      simp [Segment.pieces]

theorem mem_of_mem_blocks {opener : List Char → Option Opening} {ps : List Piece} {segment : Segment}
    (listed : segment ∈ blocks opener ps) {p : Piece} (inside : p ∈ segment.pieces) : p ∈ ps := by
  rw [← pieces_blocks opener ps]
  exact List.mem_flatMap.2 ⟨segment, listed, inside⟩

section Block
variable {opener : List Char → Option Opening} {ps body : List Piece} {inner : List Char} {o : Opening}
  (listed : .block inner o body ∈ blocks opener ps)
include listed

theorem opener_of_mem_blocks : opener inner = some o := by
  fun_induction blocks opener ps with
  | case1 => cases listed
  | case2 chars rest ih => exact ih (by simpa using listed)
  | case3 tag rest other ih => exact ih (by simpa using listed)
  | case4 tag rest o' opens unclosed ih => exact ih (by simpa using listed)
  | case5 tag rest o' opens body' after closes ih =>
      rcases List.mem_cons.1 listed with same | listed
      · cases same
        exact opens
      · exact ih listed

theorem tag_mem_of_mem_blocks : .tag inner ∈ ps :=
  mem_of_mem_blocks listed List.mem_cons_self

theorem body_subset_of_mem_blocks : body ⊆ ps := fun _ member =>
  mem_of_mem_blocks listed (List.mem_cons_of_mem _ (List.mem_append_left _ member))

end Block

theorem mem_fillTags {f : List Char → Option (List Char)} {ps : List Piece} {p : Piece}
    (member : p ∈ fillTags f ps) : p ∈ ps ∨ ∃ chars ∈ filled f ps, p = .text chars := by
  obtain ⟨q, listed, rfl⟩ := List.mem_map.1 member
  cases q with
  | text chars => exact .inl listed
  | tag inner =>
      cases found : f inner with
      | none => exact .inl (by simpa [Piece.fill, found] using listed)
      | some chars =>
          refine .inr ⟨chars, List.mem_filterMap.2 ⟨_, listed, found⟩, by simp [Piece.fill, found]⟩

theorem mem_fillBlocks {kind : BlockKind} {render : List Char → List Piece → List Piece}
    {ps : List Piece} {p : Piece} (member : p ∈ fillBlocks kind render ps) :
    p ∈ ps ∨ ∃ inner o body, .block inner o body ∈ blocks (Directive.opening? kind) ps ∧
      p ∈ render o.path body := by
  obtain ⟨segment, listed, inside⟩ := List.mem_flatMap.1 member
  cases segment with
  | piece q =>
      rw [List.mem_singleton.1 inside]
      exact .inl (mem_of_mem_blocks listed (List.mem_singleton_self q))
  | block inner o body => exact .inr ⟨inner, o, body, listed, inside⟩

/-! ### Tidy pieces stay tidy -/

theorem mem_filledBlocks {kind : BlockKind} {values : List Char → List Piece → List (List Char)}
    {ps body : List Piece} {inner : List Char} {o : Opening}
    (listed : .block inner o body ∈ blocks (Directive.opening? kind) ps) {chars : List Char}
    (inside : chars ∈ values o.path body) : chars ∈ filledBlocks kind values ps :=
  List.mem_flatMap.2 ⟨_, listed, inside⟩

theorem tidy_fillTags {f : List Char → Option (List Char)} {ps : List Piece} (tidy : TidyPieces ps)
    (inert : ∀ chars ∈ filled f ps, Inert chars) : TidyPieces (fillTags f ps) := by
  intro p member
  rcases mem_fillTags member with listed | ⟨chars, put, rfl⟩
  · exact tidy p listed
  · exact inert chars put

theorem tidy_fillBlocks {kind : BlockKind} {render : List Char → List Piece → List Piece}
    {ps : List Piece} (tidy : TidyPieces ps)
    (rendered : ∀ inner o body, .block inner o body ∈ blocks (Directive.opening? kind) ps →
      TidyPieces (render o.path body)) : TidyPieces (fillBlocks kind render ps) := by
  intro p member
  rcases mem_fillBlocks member with listed | ⟨inner, o, body, listed, inside⟩
  · exact tidy p listed
  · exact rendered inner o body listed p inside

theorem TidyPieces.body {kind : BlockKind} {ps body : List Piece} {inner : List Char} {o : Opening}
    (tidy : TidyPieces ps) (listed : .block inner o body ∈ blocks (Directive.opening? kind) ps) :
    TidyPieces body := fun p member => tidy p (body_subset_of_mem_blocks listed member)

theorem tidy_keepPieces {ps : List Piece} (tidy : TidyPieces ps) (kind : BlockKind) (wanted : Bool)
    (data : Json) : TidyPieces (keepPieces kind wanted data ps) := by
  refine tidy_fillBlocks tidy fun inner o body listed => ?_
  split
  · exact tidy.body listed
  · exact tidyPieces_nil

theorem tidy_iterate {data : Json} {path : List Char} {body : List Piece} (tidy : TidyPieces body)
    (inert : ∀ chars ∈ iterated data path body, Inert chars) : TidyPieces (iterate data path body) := by
  intro p member
  rcases mem_intercalate member with between | ⟨part, listed, inside⟩
  · rw [List.mem_singleton.1 between]
    exact (by decide : Inert ['\n'])
  · obtain ⟨binding, bound, rfl⟩ := List.mem_map.1 listed
    exact tidy_fillTags tidy (fun chars put => inert chars (List.mem_flatMap.2 ⟨binding, bound, put⟩))
      p inside

theorem tidy_loopedPieces {data : Json} {ps : List Piece} (tidy : TidyPieces ps)
    (inert : ∀ chars ∈ loopValues data ps, Inert chars) : TidyPieces (loopedPieces data ps) := by
  have kept : TidyPieces (keptPieces data ps) := tidy_keepPieces (tidy_keepPieces tidy _ _ _) _ _ _
  refine tidy_fillBlocks kept fun inner o body listed => tidy_iterate (kept.body listed) ?_
  exact fun chars put => inert chars (mem_filledBlocks listed put)

theorem expandFlat_source {data : Json} {ps : List Piece} (tidy : TidyPieces ps)
    (inert : ∀ chars ∈ loopValues data ps, Inert chars) :
    expandFlat data (source ps) = source (flatPieces data ps) := by
  have first := tidy_keepPieces tidy whenTrue true data
  have second := tidy_keepPieces first whenFalse false data
  simp only [expandFlat]
  rw [keepWhen_scan _ _ _ tidy, ← source_keepPieces whenTrue true data ps,
    keepWhen_scan _ _ _ first, ← source_keepPieces whenFalse false, repeatEach_scan _ second,
    ← source_iterate]
  exact (interpolate_scan data (tidy_loopedPieces tidy inert)).trans (source_fillTags _ _).symm

theorem tidy_openPieces {data : Json} {ps : List Piece} (tidy : TidyPieces ps)
    (narrower : ∀ inner o body, .block inner o body ∈ blocks (Directive.opening? within) ps →
      ∀ scope ∈ scopesOf data (data.resolve? o.path), TidyPieces (expandPieces scope body)) :
    TidyPieces (openPieces data ps) := by
  refine tidy_fillBlocks tidy fun inner o body listed => ?_
  unfold scopePieces
  split
  · exact tidy.body listed
  · intro p member
    obtain ⟨scope, here, member⟩ := List.mem_flatMap.1 member
    exact narrower inner o body listed scope here p member

theorem mem_earlyValues {data scope : Json} {ps body : List Piece} {inner : List Char} {o : Opening}
    (listed : .block inner o body ∈ blocks (Directive.opening? within) ps)
    (opened : scope ∈ scopesOf data (data.resolve? o.path)) {chars : List Char}
    (put : chars ∈ inserted scope body) : chars ∈ earlyValues data ps :=
  List.mem_append_left _ (mem_filledBlocks listed (List.mem_flatMap.2 ⟨scope, opened, put⟩))

theorem tidy_expandPieces {data : Json} {ps : List Piece} (tidy : TidyPieces ps)
    (inert : ∀ chars ∈ inserted data ps, Inert chars) : TidyPieces (expandPieces data ps) := by
  induction size : ps.length using Nat.strongRecOn generalizing ps data with
  | _ size ih =>
    subst size
    rw [inserted_eq, List.forall_mem_append] at inert
    obtain ⟨early, last⟩ := inert
    have opened : TidyPieces (openPieces data ps) := tidy_openPieces tidy
      fun inner o body listed scope here => ih body.length (length_body_lt listed) (tidy.body listed)
        (fun chars put => early chars (mem_earlyValues listed here put)) rfl
    rw [expandPieces_eq]
    refine tidy_fillTags (tidy_loopedPieces opened fun chars put => ?_) last
    exact early chars (List.mem_append_right _ put)

/-- Values that begin no tag are put in once and for all: the passes over text do what the passes over
pieces do. What the last pass puts in is not scanned here. -/
theorem expand_eq_source {data : Json} {ps : List Piece} (tidy : TidyPieces ps)
    (inert : ∀ chars ∈ earlyValues data ps, Inert chars) :
    expand data ps = source (expandPieces data ps) := by
  induction size : ps.length using Nat.strongRecOn generalizing ps data with
  | _ size ih =>
    subst size
    have opened : TidyPieces (openPieces data ps) := tidy_openPieces tidy
      fun inner o body listed scope here => tidy_expandPieces (tidy.body listed)
        fun chars put => inert chars (mem_earlyValues listed here put)
    have loops : ∀ chars ∈ loopValues data (openPieces data ps), Inert chars :=
      fun chars put => inert chars (List.mem_append_right _ put)
    rw [expand_eq, expandPieces_eq, ← expandFlat_source opened loops, openPieces, source_fillBlocks]
    rw [replaceBlocks_eq, replaceBlocks_eq]
    refine congrArg _ (overBlocks_congr fun inner o body listed => ?_)
    rw [scopedText_eq, scopePieces]
    split
    · rfl
    · rw [source, List.flatMap_assoc]
      refine flatMap_congr fun scope here => ?_
      refine ih body.length (length_body_lt listed) (tidy.body listed) (fun chars put => ?_) rfl
      refine inert chars (mem_earlyValues listed here ?_)
      rw [inserted_eq]
      exact List.mem_append_left _ put

theorem compileChars_source_early {data : Json} {ps : List Piece} (tidy : TidyPieces ps)
    (inert : ∀ chars ∈ earlyValues data ps, Inert chars) : compileChars (source ps) data =
      normalize (eraseTags (scan (source (expandPieces data ps)))) := by
  rw [compileChars, scan_source tidy, expand_fuse, expand_eq_source tidy inert]

/-- Compiling works on the pieces of a template as long as no value that is put in begins a tag. -/
theorem compileChars_source {data : Json} {ps : List Piece} (tidy : TidyPieces ps)
    (inert : ∀ chars ∈ inserted data ps, Inert chars) :
    compileChars (source ps) data = normalize (eraseTags (expandPieces data ps)) := by
  rw [compileChars_source_early tidy, scan_source (tidy_expandPieces tidy inert), eraseTags, eraseTags,
    replaceTags_fuse, List.nil_append]
  intro chars put
  refine inert chars ?_
  rw [inserted_eq]
  exact List.mem_append_left _ put

/-! ### Tags are those of the template -/

theorem tag_mem_fillTags {f : List Char → Option (List Char)} {ps : List Piece} {inner : List Char}
    (member : .tag inner ∈ fillTags f ps) : .tag inner ∈ ps := by
  rcases mem_fillTags member with listed | ⟨chars, -, same⟩
  · exact listed
  · cases same

theorem tag_mem_fillBlocks {kind : BlockKind} {render : List Char → List Piece → List Piece}
    (rendered : ∀ path body tag, .tag tag ∈ render path body → .tag tag ∈ body) {ps : List Piece}
    {inner : List Char} (member : .tag inner ∈ fillBlocks kind render ps) : .tag inner ∈ ps := by
  rcases mem_fillBlocks member with listed | ⟨opener, o, body, listed, inside⟩
  · exact listed
  · exact body_subset_of_mem_blocks listed (rendered _ _ _ inside)

theorem tag_mem_keepPieces {kind : BlockKind} {wanted : Bool} {data : Json} {ps : List Piece}
    {inner : List Char} (member : .tag inner ∈ keepPieces kind wanted data ps) : .tag inner ∈ ps := by
  refine tag_mem_fillBlocks (fun path body tag inside => ?_) member
  split at inside
  · exact inside
  · cases inside

theorem tag_mem_keptPieces {data : Json} {ps : List Piece} {inner : List Char}
    (member : .tag inner ∈ keptPieces data ps) : .tag inner ∈ ps :=
  tag_mem_keepPieces (tag_mem_keepPieces member)

theorem tag_mem_loopedPieces {data : Json} {ps : List Piece} {inner : List Char}
    (member : .tag inner ∈ loopedPieces data ps) : .tag inner ∈ ps := by
  refine tag_mem_keptPieces (tag_mem_fillBlocks (fun path body tag inside => ?_) member)
  rcases mem_intercalate inside with between | ⟨part, listed, inside⟩
  · cases List.mem_singleton.1 between
  · obtain ⟨binding, -, rfl⟩ := List.mem_map.1 listed
    exact tag_mem_fillTags inside

theorem tag_mem_scopePieces {data : Json} {path : List Char} {body : List Piece} {inner : List Char}
    (narrower : ∀ scope, .tag inner ∈ expandPieces scope body → .tag inner ∈ body)
    (member : .tag inner ∈ scopePieces data path body) : .tag inner ∈ body := by
  unfold scopePieces at member
  split at member
  · exact member
  · obtain ⟨scope, -, inside⟩ := List.mem_flatMap.1 member
    exact narrower scope inside

theorem tag_mem_expandPieces {data : Json} {ps : List Piece} {inner : List Char}
    (member : .tag inner ∈ expandPieces data ps) : .tag inner ∈ ps := by
  induction size : ps.length using Nat.strongRecOn generalizing ps data with
  | _ size ih =>
    subst size
    rw [expandPieces_eq] at member
    rcases mem_fillBlocks (tag_mem_loopedPieces (tag_mem_fillTags member)) with
      listed | ⟨opener, o, body, listed, inside⟩
    · exact listed
    · refine body_subset_of_mem_blocks listed (tag_mem_scopePieces (fun scope inside => ?_) inside)
      exact ih body.length (length_body_lt listed) inside rfl

theorem tag_mem_openPieces {data : Json} {ps : List Piece} {inner : List Char}
    (member : .tag inner ∈ openPieces data ps) : .tag inner ∈ ps :=
  tag_mem_fillBlocks (fun _ _ _ inside => tag_mem_scopePieces (fun _ => tag_mem_expandPieces) inside)
    member

end Prompt.Template
