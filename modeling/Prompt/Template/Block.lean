import Prompt.Template.Directive

/-!
Finding blocks. From the left, an opening directive pairs with the first closing tag of its name
behind it, whatever stands between; an opening without such a tag stays a tag. Blocks therefore never
overlap, and `source_blocks` says that the template is still whole.
-/

namespace Prompt.Template

def splitAtClose? (name : List Char) : List Piece → Option (List Piece × List Piece)
  | [] => none
  | p :: rest =>
    if p = .tag ('/' :: name) then some ([], rest)
    else (splitAtClose? name rest).map fun q => (p :: q.1, q.2)

theorem eq_of_splitAtClose? {name : List Char} {ps body after : List Piece}
    (h : splitAtClose? name ps = some (body, after)) :
    ps = body ++ .tag ('/' :: name) :: after := by
  induction ps generalizing body after with
  | nil => simp [splitAtClose?] at h
  | cons p rest ih =>
      unfold splitAtClose? at h
      split at h
      · next hp =>
          simp only [Option.some.injEq, Prod.mk.injEq] at h
          simp [← h.1, ← h.2, hp]
      · obtain ⟨q, hq, heq⟩ := Option.map_eq_some_iff.1 h
        simp only [Prod.mk.injEq] at heq
        rw [← heq.1, ← heq.2, ih hq]
        rfl

theorem length_after_splitAtClose? {name : List Char} {ps body after : List Piece}
    (h : splitAtClose? name ps = some (body, after)) :
    body.length + after.length < ps.length := by
  have := congrArg List.length (eq_of_splitAtClose? h)
  simp only [List.length_append, List.length_cons] at this
  omega

/-- A stretch of a template: a piece on its own, or a block with the inner text of its opening tag,
its directive and its body. -/
inductive Segment where
  | piece (p : Piece)
  | block (inner : List Char) (o : Opening) (body : List Piece)

def Segment.source : Segment → List Char
  | piece p => p.source
  | block inner o body => tagSource inner ++ Template.source body ++ tagSource ('/' :: o.closeName)

def blocks (opener : List Char → Option Opening) : List Piece → List Segment
  | [] => []
  | .text chars :: rest => .piece (.text chars) :: blocks opener rest
  | .tag inner :: rest =>
    match opener inner with
    | none => .piece (.tag inner) :: blocks opener rest
    | some o =>
      match _h : splitAtClose? o.closeName rest with
      | none => .piece (.tag inner) :: blocks opener rest
      | some (body, after) => .block inner o body :: blocks opener after
termination_by ps => ps.length
decreasing_by
  · simp
  · simp
  · simp
  · have := length_after_splitAtClose? _h
    simp only [List.length_cons]
    omega

theorem source_blocks (opener : List Char → Option Opening) (ps : List Piece) :
    (blocks opener ps).flatMap Segment.source = source ps := by
  fun_induction blocks opener ps with
  | case1 => rfl
  | case2 chars rest ih => simp [Segment.source, ih]
  | case3 inner rest ho ih => simp [Segment.source, ih]
  | case4 inner rest o ho hs ih => simp [Segment.source, ih]
  | case5 inner rest o ho body after hs ih =>
      simp [Segment.source, ih, eq_of_splitAtClose? hs, Piece.source]

theorem length_body_lt {opener : List Char → Option Opening} {ps body : List Piece}
    {inner : List Char} {o : Opening} (h : .block inner o body ∈ blocks opener ps) :
    body.length < ps.length := by
  fun_induction blocks opener ps with
  | case1 => simp at h
  | case2 chars rest ih =>
      have := ih (by simpa using h)
      simp only [List.length_cons]
      omega
  | case3 inner' rest ho ih =>
      have := ih (by simpa using h)
      simp only [List.length_cons]
      omega
  | case4 inner' rest o' ho hs ih =>
      have := ih (by simpa using h)
      simp only [List.length_cons]
      omega
  | case5 inner' rest o' ho body' after hs ih =>
      have total := length_after_splitAtClose? hs
      simp only [List.length_cons]
      rcases List.mem_cons.1 h with heq | hmem
      · simp only [Segment.block.injEq] at heq
        rw [heq.2.2]
        omega
      · have := ih hmem
        omega

def replaceBlocks (kind : BlockKind) (render : List Char → List Piece → List Char)
    (pieces : List Piece) : List Char :=
  (blocks (Directive.opening? kind) pieces).flatMap fun
    | .piece p => p.source
    | .block _ o body => render o.path body

end Prompt.Template
