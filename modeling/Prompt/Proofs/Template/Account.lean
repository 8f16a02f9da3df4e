import Prompt.Proofs.Template.Pairing

/-!
# What the checks report of unmatched tags

The checker drops blocks that a closing tag crosses and reports what is still on its stack in the end. As
to the tags without partner a run of it is one of `Leaves`, so that its reports are those tags, each once
(`check_accounts`). Every issue has the place of an opening pair of braces.
-/

namespace Prompt.Template

open Text

def Frame.mark (f : Frame) : Mark := ⟨f.offset, .opens f.name⟩

/-- What the checker says of a tag without partner. -/
def Mark.unmatched : Mark → Issue
  | ⟨a, .opens name⟩ => .unmatchedOpen name a
  | ⟨b, .closes name⟩ => .unmatchedClose name b

def Issue.isUnmatched : Issue → Bool
  | unmatchedOpen _ _ | unmatchedClose _ _ => true
  | _ => false

def Issue.offset : Issue → Nat
  | unmatchedOpen _ offset | unmatchedClose _ offset | nestedBlock _ offset | malformedTag _ offset
  | unterminatedTag offset | unknownPath _ offset => offset

section Check
variable {sample : Option Json} {stack : List Frame} {offset : Nat} {issue : Issue}

/-- An issue of one tag, found where it begins, that is not about a partner. -/
def Issue.Remark (offset : Nat) (issue : Issue) : Prop := issue.isUnmatched = false ∧ issue.offset = offset

theorem remark_of_mem_checkPath {path : List Char} (reported : issue ∈ checkPath sample stack path offset) :
    issue.Remark offset := by
  unfold checkPath at reported
  split at reported
  · cases reported
  · repeat' split at reported
    · cases reported
    · cases reported
    · cases reported
    · rw [List.mem_singleton.1 reported]
      exact ⟨rfl, rfl⟩

theorem eq_of_mem_strayOpening {text : List Char} (reported : issue ∈ strayOpening offset text) :
    ∃ before after, text = before ++ openBrace :: openBrace :: after ∧
      issue = .unterminatedTag (offset + byteSize before) := by
  unfold strayOpening at reported
  split at reported
  · next before after found => exact ⟨before, after, eq_of_breakFirst? found, List.mem_singleton.1 reported⟩
  · cases reported

theorem closeBlock_cases (stack : List Frame) (name : List Char) (offset : Nat) :
    ((∀ f ∈ stack, f.name ≠ name) ∧ closeBlock stack name offset = ([.unmatchedClose name offset], stack)) ∨
    ∃ inside f outside, stack = inside ++ f :: outside ∧ (∀ g ∈ inside, g.name ≠ name) ∧ f.name = name ∧
      closeBlock stack name offset = (inside.reverse.map Frame.unclosed, outside) := by
  have split := List.takeWhile_append_dropWhile (p := fun f : Frame => f.name != name) (l := stack)
  have others : ∀ g ∈ stack.takeWhile fun f => f.name != name, g.name ≠ name := fun g inner => by
    simpa using List.mem_takeWhile_imp inner
  have top := List.head?_dropWhile_not (fun f : Frame => f.name != name) stack
  unfold closeBlock
  cases found : stack.dropWhile fun f => f.name != name with
  | nil =>
      rw [found, List.append_nil] at split
      exact .inl ⟨split ▸ others, rfl⟩
  | cons f outside =>
      rw [found] at split top
      exact .inr ⟨_, f, outside, split.symm, others, by simpa using top, rfl⟩

/-- All that a tag can do: what is reported of it, and the stack behind it. -/
inductive TagStep (stack : List Frame) (inner : List Char) (offset : Nat) : List Issue → List Frame → Prop where
  | stray {name : List Char} (reads : Directive.of inner = .close name) (others : ∀ f ∈ stack, f.name ≠ name) :
      TagStep stack inner offset [.unmatchedClose name offset] stack
  | closes {inside outside : List Frame} {f : Frame} (reads : Directive.of inner = .close f.name)
      (held : stack = inside ++ f :: outside) (others : ∀ g ∈ inside, g.name ≠ f.name) :
      TagStep stack inner offset (inside.reverse.map Frame.unclosed) outside
  | opens {o : Opening} {issues : List Issue} (reads : Directive.of inner = .opens o)
      (remarks : ∀ issue ∈ issues, issue.Remark offset) : TagStep stack inner offset issues (⟨o, offset⟩ :: stack)
  | other {issues : List Issue} (reads : (Directive.of inner).bracket? = none)
      (remarks : ∀ issue ∈ issues, issue.Remark offset) : TagStep stack inner offset issues stack

theorem step_checkTag (sample : Option Json) (stack : List Frame) (inner : List Char) (offset : Nat) :
    TagStep stack inner offset (checkTag sample stack inner offset).1 (checkTag sample stack inner offset).2 := by
  unfold checkTag
  cases reads : Directive.of inner with
  | close name =>
      dsimp only
      rcases closeBlock_cases stack name offset with
        ⟨others, result⟩ | ⟨inside, f, outside, held, others, rfl, result⟩
      · rw [result]
        exact .stray reads others
      · rw [result]
        exact .closes reads held others
  | opens o =>
      apply TagStep.opens reads
      intro issue reported
      rcases List.mem_append.1 reported with nested | path
      · split at nested
        · rw [List.mem_singleton.1 nested]
          exact ⟨rfl, rfl⟩
        · cases nested
      · exact remark_of_mem_checkPath path
  | «variable» path =>
      apply TagStep.other
      · rw [reads]
        rfl
      · exact fun issue reported => remark_of_mem_checkPath reported
  | malformed =>
      apply TagStep.other
      · rw [reads]
        rfl
      · intro issue reported
        rw [List.mem_singleton.1 reported]
        exact ⟨rfl, rfl⟩

/-! ### A run of the checker, as to the tags without partner -/

theorem filter_remarks {issues : List Issue} (remarks : ∀ issue ∈ issues, issue.Remark offset) :
    issues.filter Issue.isUnmatched = [] :=
  List.filter_eq_nil_iff.2 fun issue reported => by
    rw [(remarks issue reported).1]
    exact Bool.false_ne_true

theorem filter_strayOpening (offset : Nat) (text : List Char) :
    (strayOpening offset text).filter Issue.isUnmatched = [] := by
  apply List.filter_eq_nil_iff.2
  intro issue reported
  obtain ⟨before, after, -, rfl⟩ := eq_of_mem_strayOpening reported
  exact Bool.false_ne_true

theorem filter_unclosed (frames : List Frame) : (frames.map Frame.unclosed).filter Issue.isUnmatched =
    (frames.map Frame.mark).map Mark.unmatched := by
  rw [List.map_map, List.filter_eq_self.2]
  · rfl
  · intro issue reported
    obtain ⟨f, -, rfl⟩ := List.mem_map.1 reported
    rfl

theorem bracket_ne_of_name_ne {frames : List Frame} {name : List Char} (others : ∀ f ∈ frames, f.name ≠ name) :
    ∀ m ∈ frames.map Frame.mark, m.bracket ≠ .opens name := by
  intro m held same
  obtain ⟨f, frame, rfl⟩ := List.mem_map.1 held
  exact others f frame (Bracket.opens.inj same)

section Step
variable {inner : List Char} {issues : List Issue} {next : List Frame}

theorem TagStep.leaves {rest left : List Mark} (step : TagStep stack inner offset issues next)
    (behind : Leaves (next.map Frame.mark) rest left) :
    ∃ more, Leaves (stack.map Frame.mark)
        (((Directive.of inner).bracket?.map (Mark.mk offset)).toList ++ rest) (more ++ left) ∧
      issues.filter Issue.isUnmatched = more.map Mark.unmatched := by
  cases step with
  | @stray name reads others =>
      rw [reads]
      exact ⟨[⟨offset, .closes name⟩], .stray offset name (bracket_ne_of_name_ne others) behind, rfl⟩
  | @closes inside outside f reads held others =>
      subst held
      rw [reads, List.map_append, List.map_cons]
      refine ⟨(inside.map Frame.mark).reverse,
        .closes f.offset offset f.name (bracket_ne_of_name_ne others) behind, ?_⟩
      rw [filter_unclosed, List.map_reverse]
  | @opens o _ reads remarks =>
      rw [reads]
      exact ⟨[], .opens offset o.closeName behind, filter_remarks remarks⟩
  | other reads remarks =>
      rw [reads]
      exact ⟨[], behind, filter_remarks remarks⟩

theorem TagStep.offset_of_mem_issues (step : TagStep stack inner offset issues next) (reported : issue ∈ issues) :
    issue.offset = offset ∨ ∃ f ∈ stack, issue = f.unclosed := by
  cases step with
  | stray reads others =>
      rw [List.mem_singleton.1 reported]
      exact .inl rfl
  | closes reads held others =>
      obtain ⟨g, inner, rfl⟩ := List.mem_map.1 reported
      exact .inr ⟨g, held ▸ List.mem_append_left _ (List.mem_reverse.1 inner), rfl⟩
  | opens reads remarks => exact .inl (remarks issue reported).2
  | other reads remarks => exact .inl (remarks issue reported).2

theorem TagStep.offset_of_mem_stack {f : Frame} (step : TagStep stack inner offset issues next) (held : f ∈ next) :
    f.offset = offset ∨ f ∈ stack := by
  cases step with
  | stray reads others => exact .inr held
  | closes reads split others => exact .inr (split ▸ List.mem_append_right _ (List.mem_cons_of_mem _ held))
  | opens reads remarks =>
      rcases List.mem_cons.1 held with rfl | held
      · exact .inl rfl
      · exact .inr held
  | other reads remarks => exact .inr held

end Step

theorem exists_leaves (sample : Option Json) (stack : List Frame) (offset : Nat) (ps : List Piece) :
    ∃ left, Leaves (stack.map Frame.mark) (marksFrom offset ps) left ∧
      (checkFrom sample stack offset ps).filter Issue.isUnmatched = left.map Mark.unmatched := by
  induction ps generalizing stack offset with
  | nil =>
      refine ⟨_, .done _, ?_⟩
      rw [checkFrom, filter_unclosed, List.map_reverse]
  | cons p rest ih =>
      cases p with
      | text chars =>
          obtain ⟨left, run, said⟩ := ih stack (offset + byteSize chars)
          refine ⟨left, run, ?_⟩
          rw [checkFrom, List.filter_append, filter_strayOpening, said, List.nil_append]
      | tag inner =>
          obtain ⟨left, behind, said⟩ := ih (checkTag sample stack inner offset).2 _
          obtain ⟨more, run, here⟩ := (step_checkTag sample stack inner offset).leaves behind
          refine ⟨more ++ left, run, ?_⟩
          rw [checkFrom, List.filter_append, here, said, List.map_append]

/-! ### Where the issues are -/

theorem twiceAt_of_mem_checkFrom {s before : List Char} {ps : List Piece} (whole : s = before ++ source ps)
    (frames : ∀ f ∈ stack, TwiceAt openBrace s f.offset)
    (reported : issue ∈ checkFrom sample stack (byteSize before) ps) : TwiceAt openBrace s issue.offset := by
  induction ps generalizing before stack with
  | nil =>
      obtain ⟨f, held, rfl⟩ := List.mem_map.1 reported
      exact frames f (List.mem_reverse.1 held)
  | cons p rest ih =>
      rw [source_cons] at whole
      have behind : s = (before ++ p.source) ++ source rest := by rw [whole, List.append_assoc]
      cases p with
      | text chars =>
          rw [checkFrom, List.mem_append, ← byteSize_append] at reported
          rcases reported with stray | reported
          · obtain ⟨front, after, rfl, rfl⟩ := eq_of_mem_strayOpening stray
            rw [Issue.offset, ← byteSize_append]
            have split : s = before ++ front ++ openBrace :: openBrace :: (after ++ source rest) := by
              simp [whole, Piece.source]
            exact twiceAt_open.2 ⟨_, _, split, rfl⟩
          · exact ih behind frames reported
      | tag inner =>
          have split : s = before ++ openBrace :: openBrace :: (inner ++ closeBrace :: closeBrace :: source rest) := by
            simp [whole, Piece.source, tagSource]
          have here := twiceAt_open.2 ⟨_, _, split, rfl⟩
          rw [checkFrom, List.mem_append, ← byteSize_append] at reported
          rcases reported with reported | reported
          · rcases (step_checkTag sample stack inner _).offset_of_mem_issues reported with own | ⟨f, held, rfl⟩
            · rwa [own]
            · exact frames f held
          · refine ih behind (fun f held => ?_) reported
            rcases (step_checkTag sample stack inner _).offset_of_mem_stack held with own | held
            · rwa [own]
            · exact frames f held

end Check

/-! ### The account -/

section Account
variable {template : String} {paired : Nat → Nat → Prop} {m : Mark}

theorem ascending_marks (template : String) : Ascending (marks template) := ascending_marksFrom

theorem Mark.unmatched_injective : Function.Injective Mark.unmatched := by
  rintro ⟨a, name | name⟩ ⟨b, other | other⟩ same
  · cases same
    rfl
  · cases same
  · cases same
  · cases same
    rfl

theorem Mark.isUnmatched (m : Mark) : m.unmatched.isUnmatched = true := by
  obtain ⟨a, name | name⟩ := m <;> rfl

variable (pairing : Pairing (marks template) paired)
include pairing

open Classical in
theorem check_unmatched_perm (sample : Option Json) : ((check template sample).filter Issue.isUnmatched).Perm
    (((marks template).filter fun m => ¬ m.Paired paired).map Mark.unmatched) := by
  obtain ⟨left, run, said⟩ := exists_leaves sample [] 0 (scan template.toList)
  rw [check, said]
  exact (run.perm (ascending_marks template) pairing rfl (Stacked.nil paired)).map _

theorem mem_check_unmatched_iff (sample : Option Json) :
    m.unmatched ∈ check template sample ↔ m ∈ marks template ∧ ¬ m.Paired paired := by
  have kept := (check_unmatched_perm pairing sample).mem_iff (a := m.unmatched)
  rw [List.mem_filter, and_iff_left m.isUnmatched, List.mem_map_of_injective Mark.unmatched_injective] at kept
  simpa using kept

theorem count_check_unmatched_le (sample : Option Json) (m : Mark) :
    (check template sample).count m.unmatched ≤ 1 := by
  have distinct : (marks template).Nodup := (ascending_marks template).imp fun lt same => by
    rw [same] at lt
    exact Nat.lt_irrefl _ lt
  rw [← List.count_filter m.isUnmatched, (check_unmatched_perm pairing sample).count_eq]
  exact List.nodup_iff_count_le_one.1 ((distinct.filter _).map Mark.unmatched_injective) _

theorem Mark.partner_unique {j k : Nat} (left : m.Partner paired j) (right : m.Partner paired k) : k = j := by
  obtain ⟨a, name | name⟩ := m
  · exact pairing.right_unique right left
  · exact pairing.left_unique (ascending_marks template) right left

end Account

/-- The checks account for each opening and each closing tag once: it has one partner, or it is reported
once, where it stands. The partners are those of the one pairing in which each closing tag takes the last
opening tag of its name that still stands; its pairs do not cross. And whatever is reported, an opening
pair of braces stands there. -/
theorem check_accounts (template : String) (sample : Option Json) :
    (∀ m, m ∈ marks template ↔ ∃ before inner after,
      scan template.toList = before ++ .tag inner :: after ∧ m.offset = byteSize (source before) ∧
        (Directive.of inner).bracket? = some m.bracket) ∧
    Ascending (marks template) ∧ (∃! paired, Pairing (marks template) paired) ∧
    (∀ paired, Pairing (marks template) paired →
      (∀ a b, paired a b → a < b ∧ ∃ name, ⟨a, .opens name⟩ ∈ marks template ∧
        ⟨b, .closes name⟩ ∈ marks template) ∧
      (∀ a b c d, paired a b → paired c d → a < c → c < b → d < b) ∧
      (∀ m ∈ marks template,
        (∃! k, m.Partner paired k) ∧ m.unmatched ∉ check template sample ∨
        ¬ m.Paired paired ∧ (check template sample).count m.unmatched = 1)) ∧
    (∀ issue ∈ check template sample, issue.isUnmatched → ∃ m ∈ marks template, issue = m.unmatched) ∧
    ∀ issue ∈ check template sample, TwiceAt openBrace template.toList issue.offset := by
  have ascending := ascending_marks template
  obtain ⟨paired, pairing⟩ := exists_pairing (marks template)
  refine ⟨fun m => ?_, ascending, ⟨paired, pairing, fun other pairing' => pairing.unique pairing'⟩, ?_, ?_, ?_⟩
  · rw [marks, mem_marksFrom_iff]
    simp only [Nat.zero_add]
  · intro paired pairing
    refine ⟨fun a b pair => ⟨pairing.lt pair, pairing.marked pair⟩,
      fun a b c d pair pair' => pairing.nested ascending pair pair', fun m listed => ?_⟩
    have reported := mem_check_unmatched_iff (m := m) pairing sample
    by_cases own : m.Paired paired
    · obtain ⟨k, partner⟩ := own
      exact .inl ⟨⟨k, partner, fun j other => m.partner_unique pairing partner other⟩,
        fun again => (reported.1 again).2 ⟨k, partner⟩⟩
    · refine .inr ⟨own, Nat.le_antisymm (count_check_unmatched_le pairing sample m) ?_⟩
      exact List.count_pos_iff.2 (reported.2 ⟨listed, own⟩)
  · intro issue reported kind
    have kept := (check_unmatched_perm pairing sample).mem_iff.1 (List.mem_filter.2 ⟨reported, kind⟩)
    obtain ⟨m, listed, rfl⟩ := List.mem_map.1 kept
    exact ⟨m, (List.mem_filter.1 listed).1, rfl⟩
  · intro issue reported
    have whole : template.toList = [] ++ source (scan template.toList) := (source_scan _).symm
    exact twiceAt_of_mem_checkFrom whole (List.forall_mem_nil _) reported

/-- A closing tag ends the block of its name, across the one that is still open inside. -/
example : check "\x7b\x7b#a\x7d\x7d\x7b\x7b#b\x7d\x7d\x7b\x7b/a\x7d\x7d\x7b\x7b/b\x7d\x7d" none =
    [.unmatchedOpen ['b'] 6, .unmatchedClose ['b'] 18] := by decide +kernel

end Prompt.Template
