import Prompt.Proofs.Template.Scan
import Prompt.Template.Compile

/-!
# Passes on tidy pieces

A pass prints its pieces and the next one scans them anew. When the pieces are tidy, for which it is
enough that no text and no tag holds a brace, the scan finds the same tags again and only neighbouring
texts grow together, which no pass notices.
-/

namespace Prompt.Template

def Plain (s : List Char) : Prop := openBrace ∉ s ∧ closeBrace ∉ s

instance (s : List Char) : Decidable (Plain s) := inferInstanceAs (Decidable (_ ∧ _))

@[simp] theorem plain_nil : Plain [] := by simp [Plain]

@[simp] theorem plain_append {s t : List Char} : Plain (s ++ t) ↔ Plain s ∧ Plain t := by
  simp only [Plain, List.mem_append, not_or]
  constructor
  · rintro ⟨⟨s_open, t_open⟩, s_close, t_close⟩
    exact ⟨⟨s_open, s_close⟩, t_open, t_close⟩
  · rintro ⟨⟨s_open, s_close⟩, t_open, t_close⟩
    exact ⟨⟨s_open, t_open⟩, s_close, t_close⟩

theorem plain_flatMap {α : Type} {f : α → List Char} {xs : List α}
    (plain : ∀ x ∈ xs, Plain (f x)) : Plain (xs.flatMap f) := by
  constructor <;> intro member
  all_goals
    obtain ⟨x, listed, inside⟩ := List.mem_flatMap.1 member
  · exact (plain x listed).1 inside
  · exact (plain x listed).2 inside

theorem Plain.inert {s : List Char} (plain : Plain s) : Inert s := not_doubled_concat plain.1

theorem Plain.sealed {inner : List Char} (plain : Plain inner) : Sealed inner :=
  ⟨not_doubled_cons plain.1, not_doubled_concat plain.2⟩

def Piece.Plain : Piece → Prop
  | text chars => Template.Plain chars
  | tag inner => Template.Plain inner

def PlainPieces (ps : List Piece) : Prop := ∀ p ∈ ps, p.Plain

@[simp] theorem plainPieces_nil : PlainPieces [] := by simp [PlainPieces]

@[simp] theorem plainPieces_cons {p : Piece} {ps : List Piece} :
    PlainPieces (p :: ps) ↔ p.Plain ∧ PlainPieces ps := List.forall_mem_cons

@[simp] theorem plainPieces_append {ps qs : List Piece} :
    PlainPieces (ps ++ qs) ↔ PlainPieces ps ∧ PlainPieces qs := List.forall_mem_append

theorem PlainPieces.tidy {ps : List Piece} (plain : PlainPieces ps) : TidyPieces ps := by
  intro p member
  have here := plain p member
  cases p with
  | text chars => exact here.inert
  | tag inner => exact here.sealed

/-! ### Passes do not see how text is cut -/

@[simp] theorem replaceTags_nil (f : List Char → Option (List Char)) : replaceTags f [] = [] := rfl

@[simp] theorem replaceTags_text (f : List Char → Option (List Char)) (chars : List Char)
    (rest : List Piece) : replaceTags f (.text chars :: rest) = chars ++ replaceTags f rest := by
  simp [replaceTags]

@[simp] theorem replaceTags_tag (f : List Char → Option (List Char)) (inner : List Char)
    (rest : List Piece) :
    replaceTags f (.tag inner :: rest) = (f inner).getD (tagSource inner) ++ replaceTags f rest := by
  simp [replaceTags]

@[simp] theorem replaceTags_append (f : List Char → Option (List Char)) (ps qs : List Piece) :
    replaceTags f (ps ++ qs) = replaceTags f ps ++ replaceTags f qs := by
  simp [replaceTags]

@[simp] theorem eraseTags_text (chars : List Char) (ps : List Piece) :
    eraseTags (.text chars :: ps) = chars ++ eraseTags ps := replaceTags_text _ chars ps

@[simp] theorem eraseTags_tag (inner : List Char) (ps : List Piece) :
    eraseTags (.tag inner :: ps) = eraseTags ps := replaceTags_tag _ inner ps

theorem replaceTags_fuse (f : List Char → Option (List Char)) (before : List Char)
    (ps : List Piece) : replaceTags f (fuse before ps) = before ++ replaceTags f ps := by
  fun_induction fuse before ps with
  | case1 before => simp
  | case2 before chars rest ih => simp [ih]
  | case3 before inner rest ih => simp [ih]

section Split
variable {opener : List Char → Option Opening} {inner : List Char} {rest : List Piece}

theorem blocks_text (opener : List Char → Option Opening) (chars : List Char) (rest : List Piece) :
    blocks opener (.text chars :: rest) = .piece (.text chars) :: blocks opener rest := by
  rw [blocks]

theorem blocks_tag (other : opener inner = none) :
    blocks opener (.tag inner :: rest) = .piece (.tag inner) :: blocks opener rest := by
  simp [blocks, other]

theorem blocks_unclosed {o : Opening} (opens : opener inner = some o)
    (open_ended : splitAtClose? o.closeName rest = none) :
    blocks opener (.tag inner :: rest) = .piece (.tag inner) :: blocks opener rest := by
  rw [blocks]
  simp only [opens]
  split
  · rfl
  · next found =>
      rw [open_ended] at found
      cases found

theorem blocks_block {o : Opening} {body after : List Piece} (opens : opener inner = some o)
    (closes : splitAtClose? o.closeName rest = some (body, after)) :
    blocks opener (.tag inner :: rest) = .block inner o body :: blocks opener after := by
  rw [blocks]
  simp only [opens]
  split
  · next missing =>
      rw [closes] at missing
      cases missing
  · next found =>
      rw [closes] at found
      cases found
      rfl

end Split

section Blocks
variable (kind : BlockKind) (render : List Char → List Piece → List Char)

@[simp] theorem replaceBlocks_nil : replaceBlocks kind render [] = [] := by
  simp [replaceBlocks, blocks]

@[simp] theorem replaceBlocks_text (chars : List Char) (rest : List Piece) :
    replaceBlocks kind render (.text chars :: rest) =
      chars ++ replaceBlocks kind render rest := by
  simp [replaceBlocks, blocks, Piece.source]

theorem replaceBlocks_tag {inner : List Char} (rest : List Piece)
    (other : Directive.opening? kind inner = none) :
    replaceBlocks kind render (.tag inner :: rest) =
      tagSource inner ++ replaceBlocks kind render rest := by
  simp [replaceBlocks, blocks_tag other, Piece.source]

theorem replaceBlocks_unclosed {inner : List Char} {o : Opening} {rest : List Piece}
    (opens : Directive.opening? kind inner = some o)
    (open_ended : splitAtClose? o.closeName rest = none) :
    replaceBlocks kind render (.tag inner :: rest) =
      tagSource inner ++ replaceBlocks kind render rest := by
  simp [replaceBlocks, blocks_unclosed opens open_ended, Piece.source]

theorem replaceBlocks_block {inner : List Char} {o : Opening} {rest body after : List Piece}
    (opens : Directive.opening? kind inner = some o)
    (closes : splitAtClose? o.closeName rest = some (body, after)) :
    replaceBlocks kind render (.tag inner :: rest) =
      render o.path body ++ replaceBlocks kind render after := by
  simp [replaceBlocks, blocks_block opens closes]

/-- A pass whose bodies do not see how text is cut does not see it either. -/
theorem replaceBlocks_fuse {render : List Char → List Piece → List Char} {ps : List Piece}
    (bodies : ∀ path body, body.length < ps.length →
      render path (fuse [] body) = render path body) (before : List Char) :
    replaceBlocks kind render (fuse before ps) = before ++ replaceBlocks kind render ps := by
  induction size : ps.length using Nat.strongRecOn generalizing ps before with
  | _ size ih =>
    subst size
    have shorter : ∀ (qs : List Piece) (before : List Char), qs.length < ps.length →
        replaceBlocks kind render (fuse before qs) = before ++ replaceBlocks kind render qs := by
      intro qs before less
      exact ih qs.length less (fun path body small => bodies path body (Nat.lt_trans small less)) before rfl
    match ps with
    | [] => simp [fuse]
    | .text chars :: rest =>
        simp [fuse, shorter rest _ (Nat.lt_succ_self _)]
    | .tag inner :: rest =>
        have behind := shorter rest [] (Nat.lt_succ_self _)
        rw [List.nil_append] at behind
        rw [fuse, replaceBlocks_text]
        congr 1
        cases opens : Directive.opening? kind inner with
        | none => rw [replaceBlocks_tag _ _ _ opens, replaceBlocks_tag _ _ _ opens, behind]
        | some o =>
            have split := splitAtClose?_fuse o.closeName [] rest
            cases closes : splitAtClose? o.closeName rest with
            | none =>
                rw [closes] at split
                rw [replaceBlocks_unclosed _ _ opens split, replaceBlocks_unclosed _ _ opens closes,
                  behind]
            | some parts =>
                obtain ⟨body, after⟩ := parts
                have total := length_after_splitAtClose? closes
                rw [closes] at split
                rw [replaceBlocks_block _ _ opens split, replaceBlocks_block _ _ opens closes,
                  bodies _ _ (by simp only [List.length_cons]; omega),
                  shorter after [] (by simp only [List.length_cons]; omega), List.nil_append]

end Blocks

theorem keepWhen_scan (kind : BlockKind) (wanted : Bool) (data : Json) {ps : List Piece}
    (tidy : TidyPieces ps) :
    keepWhen kind wanted data (scan (source ps)) = keepWhen kind wanted data ps := by
  rw [scan_source tidy]
  exact replaceBlocks_fuse kind (fun path body _ => by simp) []

theorem repeatEach_scan (data : Json) {ps : List Piece} (tidy : TidyPieces ps) :
    repeatEach data (scan (source ps)) = repeatEach data ps := by
  rw [scan_source tidy]
  exact replaceBlocks_fuse .forEach (fun path body _ => by
    simp only [bindIteration, replaceTags_fuse, List.nil_append]) []

theorem interpolate_scan (data : Json) {ps : List Piece} (tidy : TidyPieces ps) :
    interpolate data (scan (source ps)) = interpolate data ps := by
  rw [scan_source tidy]
  exact replaceTags_fuse _ [] ps

theorem eraseTags_scan {s : List Char} (plain : Plain s) : eraseTags (scan s) = s := by
  rw [scan_of_not_hasTag fun tag => plain.1 tag.doubled_open.mem]
  simp [eraseTags]

/-! ### Scoped blocks -/

def scopedText (data : Json) (path : List Char) (body : List Piece) : List Char :=
  match data.resolve? path with
  | some (.arr items) => items.flatMap fun item => expand (mergeScope data item) body
  | some (.obj fields) => if fields.isEmpty then [] else expand (mergeScope data (.obj fields)) body
  | value => if Json.isTruthy? value then source body else []

theorem expand_eq (data : Json) (ps : List Piece) :
    expand data ps = expandFlat data (replaceBlocks .within (scopedText data) ps) := by
  rw [expand]
  congr 1
  conv => rhs; rw [replaceBlocks, ← List.attach_map_subtype_val (blocks _ ps), List.flatMap_map]
  congr 1
  funext segment
  obtain ⟨segment, member⟩ := segment
  cases segment with
  | piece p => rfl
  | block inner o body => rfl

theorem expand_fuse (data : Json) (ps : List Piece) : expand data (fuse [] ps) = expand data ps := by
  induction size : ps.length using Nat.strongRecOn generalizing ps data with
  | _ size ih =>
    subst size
    rw [expand_eq, expand_eq]
    congr 1
    refine replaceBlocks_fuse .within ?_ []
    intro path body less
    have same : ∀ scope, expand scope (fuse [] body) = expand scope body := fun scope =>
      ih body.length less scope body rfl
    simp only [scopedText, same, source_fuse, List.nil_append]

theorem expand_scan (data : Json) {ps : List Piece} (pieces : PlainPieces ps) :
    expand data (scan (source ps)) = expand data ps := by
  rw [scan_source pieces.tidy, expand_fuse]

end Prompt.Template
