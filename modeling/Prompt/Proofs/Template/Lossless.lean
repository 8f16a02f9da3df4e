import Prompt.Proofs.Template.Cursor
import Prompt.Proofs.Template.Plain
import Prompt.Template.Check

/-!
# Passes with two cursors

A pass over a text looks for tags behind one cursor and has copied the text up to another one; they move
apart on what stays as it is. What lies between them is the invariant: it is copied in the end, so that
each pass gives what the pass over the pieces of the text gives, and nothing is lost or repeated. A block
pass is told by the stretches into which the text is cut (`Cut`).
-/

namespace Prompt.Template

open Text

namespace Cursor

/-- The text from a position on as pieces: what lies between the tags that are found, and these. -/
def pieces (s : List Char) (start : Nat) : Except BadRange (List Piece) :=
  match next s start with
  | .error e => .error e
  | .ok none => do
    let rest ← slice s start (byteSize s)
    return [.text rest]
  | .ok (some ⟨t, _ahead⟩) => do
    let gap ← slice s start t.start
    let rest ← pieces s t.stop
    return .text gap :: .tag t.inner :: rest
termination_by byteSize s - start

/-- The first closing tag of the name from a position on. -/
def findClose (s name : List Char) (start : Nat) : Except BadRange (Option (Ahead s start)) :=
  match next s start with
  | .error e => .error e
  | .ok none => .ok none
  | .ok (some t) =>
    if t.val.inner = '/' :: name then .ok (some t)
    else (findClose s name t.val.stop).map fun close => close.map t.beyond
termination_by byteSize s - start
decreasing_by
  have := t.property
  omega

/-- What lies between `cursor` and `start` is still to be copied. -/
def replaceTagsFrom (answer : List Char → Option (List Char)) (s out : List Char) (cursor start : Nat) :
    Except BadRange (List Char) :=
  match next s start with
  | .error e => .error e
  | .ok none => do
    let rest ← slice s cursor (byteSize s)
    return out ++ rest
  | .ok (some ⟨t, _ahead⟩) =>
    match answer t.inner with
    | none => replaceTagsFrom answer s out cursor t.stop
    | some replacement => do
      let gap ← slice s cursor t.start
      replaceTagsFrom answer s (out ++ gap ++ replacement) t.stop t.stop
termination_by byteSize s - start

def replaceTags (answer : List Char → Option (List Char)) (s : List Char) :
    Except BadRange (List Char) :=
  replaceTagsFrom answer s [] 0 0

/-- `opener` gives the name that closes the block and the argument of its opening tag. -/
def replaceBlocksFrom (opener : List Char → Option (List Char × List Char))
    (render : List Char → List Char → List Char) (s out : List Char) (cursor start : Nat) :
    Except BadRange (List Char) :=
  match next s start with
  | .error e => .error e
  | .ok none => do
    let rest ← slice s cursor (byteSize s)
    return out ++ rest
  | .ok (some ⟨t, _ahead⟩) =>
    match opener t.inner with
    | none => replaceBlocksFrom opener render s out cursor t.stop
    | some (name, argument) =>
      match findClose s name t.stop with
      | .error e => .error e
      | .ok none => replaceBlocksFrom opener render s out cursor t.stop
      | .ok (some ⟨close, _behind⟩) => do
        let gap ← slice s cursor t.start
        let body ← slice s t.stop close.start
        replaceBlocksFrom opener render s (out ++ gap ++ render argument body) close.stop close.stop
termination_by byteSize s - start

def replaceBlocks (opener : List Char → Option (List Char × List Char))
    (render : List Char → List Char → List Char) (s : List Char) : Except BadRange (List Char) :=
  replaceBlocksFrom opener render s [] 0 0

/-- A slice that does not exist holds no opening pair. -/
def strayBetween (s : List Char) (start stop : Nat) : List Issue :=
  match slice s start stop with
  | .error _ => []
  | .ok text => strayOpening start text

def checkFrom (sample : Option Json) (s : List Char) (stack : List Frame) (start : Nat) :
    Except BadRange (List Issue) :=
  match next s start with
  | .error e => .error e
  | .ok none => .ok (strayBetween s start (byteSize s) ++ stack.reverse.map Frame.unclosed)
  | .ok (some ⟨t, _ahead⟩) => do
    let found := checkTag sample stack t.inner t.start
    let rest ← checkFrom sample s found.2 t.stop
    return strayBetween s start t.start ++ found.1 ++ rest
termination_by byteSize s - start

def check (sample : Option Json) (s : List Char) : Except BadRange (List Issue) :=
  checkFrom sample s [] 0

/-! ### Passes over text and passes over pieces

The induction is on the rest of the text, as the scan cuts it. -/

section Passes
variable {s before rest : List Char} {f : Found}

theorem inner_tag (start : Nat) : (f.tag start).inner = f.inner := rfl

theorem start_tag : (f.tag (byteSize before)).start = byteSize (before ++ f.before) :=
  (byteSize_append before f.before).symm

theorem stop_tag :
    (f.tag (byteSize before)).stop = byteSize (before ++ (f.before ++ tagSource f.inner)) :=
  (byteSize_append before _).symm

theorem split_found (whole : s = before ++ rest) (found : firstTag? rest = some f) :
    s = before ++ (f.before ++ tagSource f.inner) ++ f.after := by
  rw [whole, List.append_assoc, ← eq_of_firstTag? found]

theorem slice_rest (whole : s = before ++ rest) : slice s (byteSize before) (byteSize s) = .ok rest :=
  slice_eq_ok_iff.2 ⟨before, [], by rw [whole, List.append_nil], rfl, by rw [whole]⟩

theorem slice_gap {gap : List Char} (after : List Char) (whole : s = before ++ gap ++ after) :
    slice s (byteSize before) (byteSize (before ++ gap)) = .ok gap :=
  slice_eq_ok_iff.2 ⟨before, after, whole, rfl, rfl⟩

theorem pieces_eq (whole : s = before ++ rest) : pieces s (byteSize before) = .ok (scan rest) := by
  fun_induction scan rest generalizing before with
  | case1 rest missing =>
      rw [pieces]
      simp only [next_missing whole missing, slice_rest whole, ok_bind]
      rfl
  | case2 rest f found ih =>
      have whole' := split_found whole found
      have gap : slice s (byteSize before) (byteSize (before ++ f.before)) = .ok f.before :=
        slice_gap (tagSource f.inner ++ f.after) (by simpa using whole')
      obtain ⟨ahead, first⟩ := next_found whole found
      rw [pieces]
      simp only [first, start_tag, stop_tag, gap, ih whole', ok_bind]
      rfl

theorem replaceTagsFrom_eq (answer : List Char → Option (List Char)) {done gap : List Char}
    (whole : s = done ++ gap ++ rest) (out : List Char) :
    replaceTagsFrom answer s out (byteSize done) (byteSize (done ++ gap)) =
      .ok (out ++ gap ++ Template.replaceTags answer (scan rest)) := by
  fun_induction scan rest generalizing done gap out with
  | case1 rest missing =>
      rw [replaceTagsFrom]
      simp only [next_missing whole missing, slice_rest (whole.trans (List.append_assoc done gap rest)),
        ok_bind, replaceTags_text, replaceTags_nil, List.append_nil, List.append_assoc]
      rfl
  | case2 rest f found ih =>
      have whole' := split_found whole found
      obtain ⟨ahead, first⟩ := next_found whole found
      rw [replaceTagsFrom]
      simp only [first, inner_tag, start_tag, stop_tag, replaceTags_text, replaceTags_tag]
      cases replaced : answer f.inner with
      | none =>
          -- the tag joins the text that is still to be copied
          have joined : s = done ++ (gap ++ (f.before ++ tagSource f.inner)) ++ f.after := whole'.trans (by simp)
          have kept := ih joined out
          simpa only [← List.append_assoc, Option.getD_none] using kept
      | some replacement =>
          have copied : slice s (byteSize done) (byteSize (done ++ gap ++ f.before)) = .ok (gap ++ f.before) := by
            rw [List.append_assoc]
            exact slice_gap (tagSource f.inner ++ f.after) (whole'.trans (by simp))
          have passed : s = done ++ gap ++ (f.before ++ tagSource f.inner) ++ [] ++ f.after :=
            whole'.trans (by simp)
          have onward := ih passed (out ++ (gap ++ f.before) ++ replacement)
          rw [List.append_nil] at onward
          simp only [copied, ok_bind, onward]
          simp

theorem replaceTags_eq (answer : List Char → Option (List Char)) (s : List Char) :
    replaceTags answer s = .ok (Template.replaceTags answer (scan s)) := by
  have whole : s = [] ++ [] ++ s := rfl
  exact replaceTagsFrom_eq answer whole []

theorem checkFrom_eq (sample : Option Json) (stack : List Frame) (whole : s = before ++ rest) :
    checkFrom sample s stack (byteSize before) =
      .ok (Template.checkFrom sample stack (byteSize before) (scan rest)) := by
  fun_induction scan rest generalizing before stack with
  | case1 rest missing =>
      rw [checkFrom]
      simp only [next_missing whole missing, strayBetween, slice_rest whole]
      rfl
  | case2 rest f found ih =>
      have whole' := split_found whole found
      have gap : slice s (byteSize before) (byteSize (before ++ f.before)) = .ok f.before :=
        slice_gap (tagSource f.inner ++ f.after) (whole'.trans (by simp))
      obtain ⟨ahead, first⟩ := next_found whole found
      rw [checkFrom]
      simp only [first, inner_tag, start_tag, stop_tag, strayBetween, gap, ih _ whole', ok_bind]
      simp only [Template.checkFrom, byteSize_append, Nat.add_assoc, List.append_assoc]
      rfl

theorem check_eq (sample : Option Json) (s : List Char) :
    check sample s = .ok (Template.checkFrom sample [] 0 (scan s)) := by
  have whole : s = [] ++ s := rfl
  exact checkFrom_eq sample [] whole

end Passes

end Cursor

/-! ### Blocks -/

/-- A piece that stays, or a block: the inner text of its opening tag, the name that closes it, the
argument that it is rendered with, and its body. -/
inductive Stretch where
  | piece (p : Piece)
  | block (inner name argument : List Char) (body : List Piece)

def Stretch.source : Stretch → List Char
  | piece p => p.source
  | block inner name _ body => tagSource inner ++ Template.source body ++ tagSource ('/' :: name)

def Stretch.rendered (render : List Char → List Char → List Char) : Stretch → List Char
  | piece p => p.source
  | block _ _ argument body => render argument (Template.source body)

/-- From the left, an opening tag and the first closing tag of its name behind it make a block with all
that is between them; other tags, and openings without such a tag, stay. -/
inductive Cut (opener : List Char → Option (List Char × List Char)) : List Piece → List Stretch → Prop where
  | nil : Cut opener [] []
  | text {rest : List Piece} {parts : List Stretch} (chars : List Char) (behind : Cut opener rest parts) :
      Cut opener (.text chars :: rest) (.piece (.text chars) :: parts)
  | other {inner : List Char} {rest : List Piece} {parts : List Stretch} (plain : opener inner = none)
      (behind : Cut opener rest parts) : Cut opener (.tag inner :: rest) (.piece (.tag inner) :: parts)
  | unclosed {inner name argument : List Char} {rest : List Piece} {parts : List Stretch}
      (opens : opener inner = some (name, argument)) (open_ended : .tag ('/' :: name) ∉ rest)
      (behind : Cut opener rest parts) : Cut opener (.tag inner :: rest) (.piece (.tag inner) :: parts)
  | block {inner name argument : List Char} {rest body after : List Piece} {parts : List Stretch}
      (opens : opener inner = some (name, argument)) (closes : rest = body ++ .tag ('/' :: name) :: after)
      (first : .tag ('/' :: name) ∉ body) (behind : Cut opener after parts) :
      Cut opener (.tag inner :: rest) (.block inner name argument body :: parts)

section Cut
variable {opener : List Char → Option (List Char × List Char)} {ps : List Piece} {parts : List Stretch}

theorem Cut.source_eq (cut : Cut opener ps parts) : parts.flatMap Stretch.source = source ps := by
  induction cut with
  | nil => rfl
  | text chars behind ih => simp [Stretch.source, ih]
  | other plain behind ih => simp [Stretch.source, ih]
  | unclosed opens open_ended behind ih => simp [Stretch.source, ih]
  | block opens closes first behind ih => simp [closes, Stretch.source, Piece.source, ih]

theorem splitAtClose?_eq_none_iff {name : List Char} :
    splitAtClose? name ps = none ↔ .tag ('/' :: name) ∉ ps := by
  induction ps with
  | nil => simp [splitAtClose?]
  | cons p rest ih =>
      rw [List.mem_cons, not_or, splitAtClose?]
      by_cases closes : p = .tag ('/' :: name)
      · simp [closes]
      · rw [if_neg closes, Option.map_eq_none_iff, ih]
        exact (and_iff_right (Ne.symm closes)).symm

theorem splitAtClose?_of_first {name : List Char} {body after : List Piece}
    (closes : ps = body ++ .tag ('/' :: name) :: after) (first : .tag ('/' :: name) ∉ body) :
    splitAtClose? name ps = some (body, after) := by
  subst closes
  induction body with
  | nil => simp [splitAtClose?]
  | cons p body ih =>
      rw [List.mem_cons, not_or] at first
      rw [List.cons_append, splitAtClose?, if_neg (Ne.symm first.1), ih first.2]
      rfl

theorem not_mem_of_splitAtClose? {name : List Char} {body after : List Piece}
    (closes : splitAtClose? name ps = some (body, after)) : .tag ('/' :: name) ∉ body := by
  induction ps generalizing body with
  | nil => cases closes
  | cons p rest ih =>
      rw [splitAtClose?] at closes
      split at closes
      · cases closes
        exact List.not_mem_nil
      · next other =>
          obtain ⟨q, behind, same⟩ := Option.map_eq_some_iff.1 closes
          cases same
          rw [List.mem_cons, not_or]
          exact ⟨Ne.symm other, ih behind⟩

theorem exists_cut (opener : List Char → Option (List Char × List Char)) (ps : List Piece) :
    ∃ parts, Cut opener ps parts := by
  induction size : ps.length using Nat.strongRecOn generalizing ps with
  | _ size ih =>
    subst size
    match ps with
    | [] => exact ⟨[], .nil⟩
    | .text chars :: rest =>
        obtain ⟨parts, behind⟩ := ih rest.length (Nat.lt_succ_self _) rest rfl
        exact ⟨_, .text chars behind⟩
    | .tag inner :: rest =>
        obtain ⟨parts, behind⟩ := ih rest.length (Nat.lt_succ_self _) rest rfl
        cases opens : opener inner with
        | none => exact ⟨_, .other opens behind⟩
        | some p =>
            cases closes : splitAtClose? p.1 rest with
            | none => exact ⟨_, .unclosed opens (splitAtClose?_eq_none_iff.1 closes) behind⟩
            | some q =>
                have shorter := length_after_splitAtClose? closes
                obtain ⟨parts, behind⟩ := ih q.2.length (by simp only [List.length_cons]; omega) q.2 rfl
                exact ⟨_, .block opens (eq_of_splitAtClose? closes) (not_mem_of_splitAtClose? closes) behind⟩

/-- There is one way only to cut. -/
theorem Cut.unique {others : List Stretch} (cut : Cut opener ps parts) (cut' : Cut opener ps others) :
    others = parts := by
  induction cut generalizing others with
  | nil =>
      cases cut'
      rfl
  | text chars behind ih =>
      cases cut' with
      | text _ behind' => rw [ih behind']
  | other plain behind ih =>
      cases cut' with
      | other _ behind' => rw [ih behind']
      | unclosed opens | block opens =>
          rw [plain] at opens
          cases opens
  | unclosed opens open_ended behind ih =>
      cases cut' with
      | other plain =>
          rw [opens] at plain
          cases plain
      | unclosed _ _ behind' => rw [ih behind']
      | block opens' closes =>
          rw [opens] at opens'
          cases opens'
          exact absurd (closes ▸ List.mem_append_right _ List.mem_cons_self) open_ended
  | block opens closes first behind ih =>
      cases cut' with
      | other plain =>
          rw [opens] at plain
          cases plain
      | unclosed opens' open_ended =>
          rw [opens] at opens'
          cases opens'
          exact absurd (closes ▸ List.mem_append_right _ List.mem_cons_self) open_ended
      | block opens' closes' first' behind' =>
          rw [opens] at opens'
          cases opens'
          have same := (splitAtClose?_of_first closes first).symm.trans (splitAtClose?_of_first closes' first')
          cases same
          rw [ih behind']

end Cut

namespace Cursor

section Blocks
variable {s before rest : List Char} {name : List Char} {body after : List Piece}

theorem splitAtClose?_scanned (chars inner : List Char) (ps : List Piece) :
    splitAtClose? name (.text chars :: .tag inner :: ps) =
      if inner = '/' :: name then some ([.text chars], ps)
      else (splitAtClose? name ps).map fun q => (.text chars :: .tag inner :: q.1, q.2) := by
  by_cases closes : inner = '/' :: name
  · simp [splitAtClose?, closes]
  · simp only [splitAtClose?, reduceCtorEq, if_false, Piece.tag.injEq, closes, Option.map_map]
    rfl

theorem findClose_none (whole : s = before ++ rest) (missing : splitAtClose? name (scan rest) = none) :
    findClose s name (byteSize before) = .ok none := by
  fun_induction scan rest generalizing before with
  | case1 rest none_left =>
      rw [findClose]
      simp only [next_missing whole none_left]
  | case2 rest f found ih =>
      obtain ⟨ahead, first⟩ := next_found whole found
      rw [splitAtClose?_scanned] at missing
      split at missing
      · cases missing
      · next other =>
          have behind : findClose s name (f.tag (byteSize before)).stop = .ok none := by
            rw [stop_tag]
            exact ih (split_found whole found) (Option.map_eq_none_iff.1 missing)
          rw [findClose]
          simp only [first, inner_tag, other, if_false, behind]
          rfl

theorem findClose_some (whole : s = before ++ rest)
    (closes : splitAtClose? name (scan rest) = some (body, after)) :
    ∃ ahead, findClose s name (byteSize before) = .ok (some ⟨⟨byteSize (before ++ source body),
      byteSize (before ++ (source body ++ tagSource ('/' :: name))), '/' :: name⟩, ahead⟩) := by
  fun_induction scan rest generalizing before body with
  | case1 rest none_left => cases closes
  | case2 rest f found ih =>
      obtain ⟨ahead, first⟩ := next_found whole found
      rw [splitAtClose?_scanned] at closes
      split at closes
      · next own =>
          cases closes
          have same : f.tag (byteSize before) = ⟨byteSize (before ++ source [.text f.before]),
              byteSize (before ++ (source [.text f.before] ++ tagSource ('/' :: name))), '/' :: name⟩ := by
            rw [← own]
            simp [Found.tag, Piece.source]
          refine ⟨same ▸ ahead, ?_⟩
          rw [findClose]
          simp only [first, if_true, same]
      · next other =>
          obtain ⟨q, behind, same⟩ := Option.map_eq_some_iff.1 closes
          cases same
          have close : ∃ ahead, findClose s name (f.tag (byteSize before)).stop = .ok (some
              ⟨⟨byteSize (before ++ (f.before ++ tagSource f.inner) ++ source q.1),
                byteSize (before ++ (f.before ++ tagSource f.inner) ++
                  (source q.1 ++ tagSource ('/' :: name))), '/' :: name⟩, ahead⟩) := by
            rw [stop_tag]
            exact ih (split_found whole found) behind
          obtain ⟨ahead', close⟩ := close
          have same : source (.text f.before :: .tag f.inner :: q.1) =
              f.before ++ tagSource f.inner ++ source q.1 := by simp [Piece.source]
          have beyond := (Ahead.beyond ⟨_, ahead⟩ ⟨_, ahead'⟩).property
          rw [findClose]
          simp only [first, inner_tag, other, if_false, close, same, List.append_assoc] at beyond ⊢
          exact ⟨beyond, rfl⟩

variable {opener : List Char → Option (List Char × List Char)} {done gap : List Char} {f : Found}
  (render : List Char → List Char → List Char) (out : List Char)

/-- A tag that opens no block joins the text that is still to be copied. -/
theorem replaceBlocksFrom_kept (whole : s = done ++ gap ++ rest) (found : firstTag? rest = some f)
    (stays : ∀ name argument, opener f.inner = some (name, argument) →
      splitAtClose? name (scan f.after) = none) :
    replaceBlocksFrom opener render s out (byteSize done) (byteSize (done ++ gap)) =
      replaceBlocksFrom opener render s out (byteSize done)
        (byteSize (done ++ (gap ++ (f.before ++ tagSource f.inner)))) := by
  obtain ⟨ahead, first⟩ := next_found whole found
  have stop : (f.tag (byteSize (done ++ gap))).stop =
      byteSize (done ++ (gap ++ (f.before ++ tagSource f.inner))) := by
    rw [stop_tag, List.append_assoc]
  conv_lhs => rw [replaceBlocksFrom]
  rw [← stop]
  simp only [first, inner_tag]
  cases opens : opener f.inner with
  | none => rfl
  | some p =>
      have missing : findClose s p.1 (f.tag (byteSize (done ++ gap))).stop = .ok none := by
        rw [stop_tag]
        exact findClose_none (split_found whole found) (stays p.1 p.2 opens)
      simp only [missing]

/-- A block is rendered behind the text that was still to be copied, and both cursors meet behind it. -/
theorem replaceBlocksFrom_block {argument : List Char} (whole : s = done ++ gap ++ rest)
    (found : firstTag? rest = some f) (opens : opener f.inner = some (name, argument))
    (closes : splitAtClose? name (scan f.after) = some (body, after)) :
    replaceBlocksFrom opener render s out (byteSize done) (byteSize (done ++ gap)) =
      replaceBlocksFrom opener render s (out ++ (gap ++ f.before) ++ render argument (source body))
        (byteSize (done ++ gap ++ (f.before ++ tagSource f.inner) ++ (source body ++ tagSource ('/' :: name))))
        (byteSize (done ++ gap ++ (f.before ++ tagSource f.inner) ++
          (source body ++ tagSource ('/' :: name)))) := by
  have whole' := split_found whole found
  have behind : f.after = source body ++ tagSource ('/' :: name) ++ source after := by
    rw [← source_scan f.after, eq_of_splitAtClose? closes]
    simp [Piece.source]
  have copied : slice s (byteSize done) (f.tag (byteSize (done ++ gap))).start = .ok (gap ++ f.before) := by
    rw [start_tag, List.append_assoc]
    exact slice_gap (tagSource f.inner ++ f.after) (whole'.trans (by simp))
  have inside : slice s (f.tag (byteSize (done ++ gap))).stop
      (byteSize (done ++ gap ++ (f.before ++ tagSource f.inner) ++ source body)) = .ok (source body) := by
    rw [stop_tag]
    exact slice_gap (tagSource ('/' :: name) ++ source after)
      (whole'.trans (by rw [behind]; simp))
  have close : ∃ ahead, findClose s name (f.tag (byteSize (done ++ gap))).stop = .ok (some
      ⟨⟨byteSize (done ++ gap ++ (f.before ++ tagSource f.inner) ++ source body),
        byteSize (done ++ gap ++ (f.before ++ tagSource f.inner) ++
          (source body ++ tagSource ('/' :: name))), '/' :: name⟩, ahead⟩) := by
    rw [stop_tag]
    exact findClose_some whole' closes
  obtain ⟨ahead, first⟩ := next_found whole found
  obtain ⟨ahead', close⟩ := close
  rw [replaceBlocksFrom]
  simp only [first, inner_tag, opens, close, copied, inside, ok_bind]

theorem replaceBlocksFrom_eq {parts : List Stretch} (whole : s = done ++ gap ++ rest)
    (cut : Cut opener (scan rest) parts) :
    replaceBlocksFrom opener render s out (byteSize done) (byteSize (done ++ gap)) =
      .ok (out ++ gap ++ parts.flatMap (Stretch.rendered render)) := by
  induction size : rest.length using Nat.strongRecOn generalizing rest done gap parts out with
  | _ size ih =>
    subst size
    cases found : firstTag? rest with
    | none =>
        rw [scan_of_not_hasTag (firstTag?_eq_none_iff.1 found)] at cut
        obtain _ | ⟨_, _ | _⟩ := cut
        rw [replaceBlocksFrom]
        simp only [next_missing whole found, slice_rest (whole.trans (List.append_assoc done gap rest)), ok_bind]
        simp [Stretch.rendered, Piece.source]
        rfl
    | some f =>
        have whole' := split_found whole found
        have shorter := length_after_lt found
        rw [scan_of_firstTag? found] at cut
        obtain _ | ⟨_, behind⟩ := cut
        have joined : s = done ++ (gap ++ (f.before ++ tagSource f.inner)) ++ f.after := whole'.trans (by simp)
        have onward {parts : List Stretch} (behind : Cut opener (scan f.after) parts) :=
          ih f.after.length shorter out joined behind rfl
        cases behind with
        | other plain behind =>
            have stays : ∀ name argument, opener f.inner = some (name, argument) →
                splitAtClose? name (scan f.after) = none := by
              intro name argument opens
              rw [plain] at opens
              cases opens
            rw [replaceBlocksFrom_kept render out whole found stays, onward behind]
            simp [Stretch.rendered, Piece.source]
        | unclosed opens open_ended behind =>
            have stays : ∀ name argument, opener f.inner = some (name, argument) →
                splitAtClose? name (scan f.after) = none := by
              intro name argument opens'
              cases opens.symm.trans opens'
              exact splitAtClose?_eq_none_iff.2 open_ended
            rw [replaceBlocksFrom_kept render out whole found stays, onward behind]
            simp [Stretch.rendered, Piece.source]
        | @block _ name argument _ body after parts opens closes fresh behind =>
            have split : f.after = source body ++ tagSource ('/' :: name) ++ source after := by
              rw [← source_scan f.after, closes]
              simp [Piece.source]
            rw [replaceBlocksFrom_block render out whole found opens (splitAtClose?_of_first closes fresh)]
            have passed : s = done ++ gap ++ (f.before ++ tagSource f.inner) ++
                (source body ++ tagSource ('/' :: name)) ++ [] ++ source after := whole'.trans (by rw [split]; simp)
            have onward := ih (source after).length (by rw [split, List.length_append] at shorter; omega)
              (out ++ (gap ++ f.before) ++ render argument (source body)) passed
              ((scan_after closes).symm ▸ behind) rfl
            rw [List.append_nil] at onward
            rw [onward]
            simp [Stretch.rendered, Piece.source]

theorem replaceBlocks_eq {parts : List Stretch} (cut : Cut opener (scan s) parts) :
    replaceBlocks opener render s = .ok (parts.flatMap (Stretch.rendered render)) := by
  have whole : s = [] ++ [] ++ s := rfl
  exact replaceBlocksFrom_eq render [] whole cut

end Blocks

end Cursor

/-! ### The passes of the compiler -/

/-- The name that closes a block of the kind, and its path. -/
def BlockKind.opener (kind : BlockKind) (inner : List Char) : Option (List Char × List Char) :=
  (Directive.opening? kind inner).map fun o => (o.closeName, o.path)

theorem BlockKind.opener_eq_none_iff {kind : BlockKind} {inner : List Char} :
    kind.opener inner = none ↔ Directive.opening? kind inner = none :=
  Option.map_eq_none_iff

/-- Cut in this way, the bodies of a scanned text are rendered as pieces or, scanned anew, as texts. -/
theorem Cut.rendered_eq {kind : BlockKind} {s : List Char} {ps : List Piece} {parts : List Stretch}
    (render : List Char → List Piece → List Char) (cut : Cut kind.opener ps parts) (inside : ps <:+ scan s) :
    parts.flatMap (Stretch.rendered fun path body => render path (scan body)) =
      replaceBlocks kind render ps := by
  induction cut with
  | nil => simp
  | text chars behind ih =>
      simp [Stretch.rendered, Piece.source, ih ((List.suffix_cons _ _).trans inside)]
  | other plain behind ih =>
      rw [replaceBlocks_tag _ _ _ (BlockKind.opener_eq_none_iff.1 plain),
        ← ih ((List.suffix_cons _ _).trans inside)]
      rfl
  | @unclosed inner name argument rest parts opens open_ended behind ih =>
      obtain ⟨o, found, same⟩ := Option.map_eq_some_iff.1 opens
      cases same
      rw [replaceBlocks_unclosed _ _ found (splitAtClose?_eq_none_iff.2 open_ended),
        ← ih ((List.suffix_cons _ _).trans inside)]
      rfl
  | @block inner name argument rest body after parts opens closes fresh behind ih =>
      obtain ⟨o, found, same⟩ := Option.map_eq_some_iff.1 opens
      cases same
      obtain ⟨front, whole⟩ := inside
      subst closes
      have own : scan (source body) = body := scan_before (scan_after whole.symm)
      rw [replaceBlocks_block _ _ found (splitAtClose?_of_first rfl fresh), ← ih, List.flatMap_cons]
      · rw [Stretch.rendered, own]
      · exact ⟨front ++ .tag inner :: (body ++ [.tag ('/' :: o.closeName)]), by rw [← whole]; simp⟩

/-- Scanning and replacing lose nothing and repeat nothing. The pieces of a text are what repeated scanning
finds, and put together they are the text. Replacing tags replaces those that have an answer, and replacing
blocks those stretches of the one cut into blocks and pieces that are blocks; when each is rendered as it
stands there, the text stays. -/
theorem replace_lossless (s : List Char) :
    (Cursor.pieces s 0 = .ok (scan s) ∧ source (scan s) = s) ∧
    (∀ answer, Cursor.replaceTags answer s = .ok (replaceTags answer (scan s))) ∧
    (∀ opener, ∃! parts, Cut opener (scan s) parts ∧ parts.flatMap Stretch.source = s ∧
      ∀ render, Cursor.replaceBlocks opener render s = .ok (parts.flatMap (Stretch.rendered render)) ∧
        ((∀ part ∈ parts, part.rendered render = part.source) →
          Cursor.replaceBlocks opener render s = .ok s)) ∧
    (∀ (kind : BlockKind) render, Cursor.replaceBlocks kind.opener (fun path body => render path (scan body)) s =
      .ok (replaceBlocks kind render (scan s))) := by
  have whole : s = [] ++ s := rfl
  refine ⟨⟨Cursor.pieces_eq whole, source_scan s⟩, fun answer => Cursor.replaceTags_eq answer s,
    fun opener => ?_, fun kind render => ?_⟩
  · obtain ⟨parts, cut⟩ := exists_cut opener (scan s)
    have whole : parts.flatMap Stretch.source = s := by rw [cut.source_eq, source_scan]
    refine ⟨parts, ⟨cut, whole, fun render => ⟨Cursor.replaceBlocks_eq render cut, fun own => ?_⟩⟩,
      fun others found => cut.unique found.1⟩
    rw [Cursor.replaceBlocks_eq render cut, List.flatMap_congr own, whole]
  · obtain ⟨parts, cut⟩ := exists_cut kind.opener (scan s)
    rw [Cursor.replaceBlocks_eq _ cut, cut.rendered_eq render (List.suffix_refl _)]

end Prompt.Template
