import Mathlib.Data.List.Perm.Basic
import Mathlib.Order.Bounds.Basic
import Prompt.Proofs.Template.Cursor
import Prompt.Proofs.Template.Grammar

/-!
# Which blocks the checks pair

Opening and closing tags by the bytes at which they begin. Each closing tag takes the last opening tag of
its name that still stands before it, and with it what was opened in between no longer stands: that is one
pairing, said without the checker (`Pairing`). The stack of the checker holds the openings that stand at
the place that it has reached (`Stacked`), so what it reports as unmatched is what is left without partner.
-/

namespace Prompt.Template

open Text

/-- An opening or a closing tag of a block, and where it begins. -/
structure Mark where
  offset : Nat
  bracket : Bracket

def marksFrom (offset : Nat) : List Piece → List Mark
  | [] => []
  | .text chars :: rest => marksFrom (offset + byteSize chars) rest
  | .tag inner :: rest =>
    ((Directive.of inner).bracket?.map (Mark.mk offset)).toList ++
      marksFrom (offset + byteSize (tagSource inner)) rest

def marks (template : String) : List Mark := marksFrom 0 (scan template.toList)

def Ascending (ms : List Mark) : Prop := ms.Pairwise fun m n => m.offset < n.offset

section Marks
variable {offset : Nat} {ps : List Piece} {m n : Mark} {ms : List Mark}

theorem mem_marksFrom_iff : m ∈ marksFrom offset ps ↔ ∃ before inner after,
    ps = before ++ .tag inner :: after ∧ m.offset = offset + byteSize (source before) ∧
      (Directive.of inner).bracket? = some m.bracket := by
  constructor
  · intro listed
    induction ps generalizing offset with
    | nil => cases listed
    | cons p rest ih =>
        cases p with
        | text chars =>
            obtain ⟨before, inner, after, rfl, place, reads⟩ := ih listed
            exact ⟨.text chars :: before, inner, after, rfl, by simp [place, Piece.source, Nat.add_assoc], reads⟩
        | tag tag =>
            rcases List.mem_append.1 listed with here | behind
            · obtain ⟨bracket, reads, rfl⟩ := Option.map_eq_some_iff.1 (Option.mem_toList.1 here)
              exact ⟨[], tag, rest, rfl, rfl, reads⟩
            · obtain ⟨before, inner, after, rfl, place, reads⟩ := ih behind
              exact ⟨.tag tag :: before, inner, after, rfl, by simp [place, Piece.source, Nat.add_assoc], reads⟩
  · rintro ⟨before, inner, after, rfl, place, reads⟩
    induction before generalizing offset with
    | nil =>
        apply List.mem_append_left
        rw [reads, Option.map_some, Option.mem_toList]
        exact congrArg (fun k => some (Mark.mk k m.bracket)) place.symm
    | cons p before ih =>
        cases p with
        | text chars => exact ih (by simpa [Piece.source, Nat.add_assoc] using place)
        | tag tag => exact List.mem_append_right _ (ih (by simpa [Piece.source, Nat.add_assoc] using place))

theorem le_offset_of_mem_marksFrom (listed : m ∈ marksFrom offset ps) : offset ≤ m.offset := by
  obtain ⟨before, inner, after, -, place, -⟩ := mem_marksFrom_iff.1 listed
  omega

theorem ascending_marksFrom : Ascending (marksFrom offset ps) := by
  induction ps generalizing offset with
  | nil => exact List.Pairwise.nil
  | cons p rest ih =>
      cases p with
      | text chars => exact ih
      | tag inner =>
          apply List.pairwise_append.2
          refine ⟨?_, ih, fun m here n behind => ?_⟩
          · cases (Directive.of inner).bracket? <;> simp
          · obtain ⟨bracket, -, rfl⟩ := Option.map_eq_some_iff.1 (Option.mem_toList.1 here)
            have later := le_offset_of_mem_marksFrom behind
            rw [byteSize_tagSource] at later
            show offset < n.offset
            omega

theorem Ascending.eq_of_offset (ascending : Ascending ms) (left : m ∈ ms) (right : n ∈ ms)
    (same : m.offset = n.offset) : m = n := by
  have apart : ms.Pairwise fun m n => m.offset ≠ n.offset := ascending.imp Nat.ne_of_lt
  have symmetric : Std.Symm fun m n : Mark => m.offset ≠ n.offset := ⟨fun _ _ => Ne.symm⟩
  by_contra other
  exact apart.forall left right other same

end Marks

/-! ### The pairing -/

/-- Before `b`, and neither inside a pair that is closed before `b` nor an end of it. -/
def Standing (paired : Nat → Nat → Prop) (a b : Nat) : Prop :=
  a < b ∧ ∀ c d, paired c d → d < b → d < a ∨ a < c

/-- Each closing tag belongs to the last opening tag of its name that stands before it, if one does. -/
def Pairing (ms : List Mark) (paired : Nat → Nat → Prop) : Prop :=
  ∀ a b, paired a b ↔ ∃ name, ⟨b, .closes name⟩ ∈ ms ∧
    IsGreatest {a | ⟨a, .opens name⟩ ∈ ms ∧ Standing paired a b} a

/-- The partners of a closing tag, by recursion on where it stands. -/
def partners (ms : List Mark) (b : Nat) : Set Nat :=
  {a | ∃ name, ⟨b, .closes name⟩ ∈ ms ∧ IsGreatest {a | ⟨a, .opens name⟩ ∈ ms ∧ a < b ∧
    ∀ d, (_ : d < b) → ∀ c ∈ partners ms d, d < a ∨ a < c} a}
termination_by b

theorem exists_pairing (ms : List Mark) : ∃ paired, Pairing ms paired := by
  refine ⟨fun a b => a ∈ partners ms b, fun a b => ?_⟩
  dsimp only
  rw [partners]
  refine exists_congr fun name => and_congr_right fun _ => ?_
  have same : {a | ⟨a, .opens name⟩ ∈ ms ∧ Standing (fun a b => a ∈ partners ms b) a b} =
      {a | ⟨a, .opens name⟩ ∈ ms ∧ a < b ∧ ∀ d, (_ : d < b) → ∀ c ∈ partners ms d, d < a ∨ a < c} := by
    ext a
    refine and_congr_right fun _ => and_congr_right fun _ => ?_
    exact ⟨fun stands d before c pair => stands c d pair before, fun stands c d pair before => stands d before c pair⟩
  rw [same]

section Pairing
variable {ms : List Mark} {paired other : Nat → Nat → Prop} {a b c d : Nat} {name : List Char}

/-- Whether a tag stands at a place is decided by the pairs before it, and these by induction. -/
theorem Pairing.unique (pairing : Pairing ms paired) (pairing' : Pairing ms other) : other = paired := by
  have alike (b : Nat) : ∀ a, other a b ↔ paired a b := by
    induction b using Nat.strongRecOn with
    | _ b ih =>
      intro a
      have stands : ∀ a, Standing other a b ↔ Standing paired a b := fun a =>
        and_congr_right fun _ => forall₂_congr fun c d =>
          ⟨fun out pair before => out ((ih d before c).2 pair) before,
            fun out pair before => out ((ih d before c).1 pair) before⟩
      rw [pairing a b, pairing' a b]
      simp only [stands]
  funext a b
  exact propext (alike b a)

variable (pairing : Pairing ms paired)
include pairing

theorem Pairing.lt (pair : paired a b) : a < b := by
  obtain ⟨name, -, greatest⟩ := (pairing a b).1 pair
  exact greatest.1.2.1

theorem Pairing.marked (pair : paired a b) : ∃ name, ⟨a, .opens name⟩ ∈ ms ∧ ⟨b, .closes name⟩ ∈ ms := by
  obtain ⟨name, closes, greatest⟩ := (pairing a b).1 pair
  exact ⟨name, greatest.1.1, closes⟩

theorem Pairing.standing (pair : paired a b) : Standing paired a b := by
  obtain ⟨name, -, greatest⟩ := (pairing a b).1 pair
  exact greatest.1.2

theorem Pairing.right_unique (pair : paired a b) (pair' : paired a d) : b = d := by
  have := pairing.lt pair
  have := pairing.lt pair'
  have first := (pairing.standing pair).2 a d pair'
  have second := (pairing.standing pair').2 a b pair
  omega

variable (ascending : Ascending ms)
include ascending

theorem Pairing.left_unique (pair : paired a b) (pair' : paired c b) : a = c := by
  obtain ⟨name, closes, greatest⟩ := (pairing a b).1 pair
  obtain ⟨name', closes', greatest'⟩ := (pairing c b).1 pair'
  cases ascending.eq_of_offset closes closes' rfl
  exact greatest.unique greatest'

theorem Pairing.nested (pair : paired a b) (pair' : paired c d) (later : a < c) (inside : c < b) :
    d < b := by
  rcases Nat.lt_trichotomy b d with beyond | rfl | before
  · have := (pairing.standing pair').2 a b pair beyond
    omega
  · have := pairing.left_unique ascending pair pair'
    omega
  · exact before

theorem Pairing.not_of_opens (opens : ⟨b, .opens name⟩ ∈ ms) : ¬ paired a b := by
  intro pair
  obtain ⟨other, -, closes⟩ := pairing.marked pair
  cases ascending.eq_of_offset opens closes rfl

end Pairing

/-! ### What is left over -/

/-- What a run of the checker leaves without partner, behind the openings on the stack, in the order in
which it says so. A closing tag takes the topmost opening of its name and drops those above it. -/
inductive Leaves : List Mark → List Mark → List Mark → Prop where
  | done (stack : List Mark) : Leaves stack [] stack.reverse
  | opens {stack rest left : List Mark} (a : Nat) (name : List Char)
      (behind : Leaves (⟨a, .opens name⟩ :: stack) rest left) :
      Leaves stack (⟨a, .opens name⟩ :: rest) left
  | closes {inside outside rest left : List Mark} (a b : Nat) (name : List Char)
      (others : ∀ m ∈ inside, m.bracket ≠ .opens name) (behind : Leaves outside rest left) :
      Leaves (inside ++ ⟨a, .opens name⟩ :: outside) (⟨b, .closes name⟩ :: rest) (inside.reverse ++ left)
  | stray {stack rest left : List Mark} (b : Nat) (name : List Char)
      (others : ∀ m ∈ stack, m.bracket ≠ .opens name) (behind : Leaves stack rest left) :
      Leaves stack (⟨b, .closes name⟩ :: rest) (⟨b, .closes name⟩ :: left)

def Mark.Partner (paired : Nat → Nat → Prop) (m : Mark) (k : Nat) : Prop :=
  match m.bracket with
  | .opens _ => paired m.offset k
  | .closes _ => paired k m.offset

def Mark.Paired (paired : Nat → Nat → Prop) (m : Mark) : Prop := ∃ k, m.Partner paired k

/-- No pair that is closed by one of the tags has the place inside or at an end. -/
def Uncovered (paired : Nat → Nat → Prop) (past : List Mark) (a : Nat) : Prop :=
  ∀ c d, paired c d → d ∈ past.map Mark.offset → d < a ∨ a < c

theorem uncovered_concat {paired : Nat → Nat → Prop} {past : List Mark} {m : Mark} {a : Nat} :
    Uncovered paired (past ++ [m]) a ↔
      Uncovered paired past a ∧ ∀ c, paired c m.offset → m.offset < a ∨ a < c := by
  simp only [Uncovered, List.map_append, List.map_singleton, List.mem_append, List.mem_singleton]
  constructor
  · exact fun out => ⟨fun c d pair earlier => out c d pair (.inl earlier), fun c pair => out c _ pair (.inr rfl)⟩
  · rintro ⟨out, last⟩ c d pair (earlier | rfl)
    · exact out c d pair earlier
    · exact last c pair

/-- The stack holds the openings of the tags so far that no pair covers which is closed by then. -/
structure Stacked (paired : Nat → Nat → Prop) (past stack : List Mark) : Prop where
  descending : stack.Pairwise fun m n => n.offset < m.offset
  mem_iff (m : Mark) :
    m ∈ stack ↔ m ∈ past ∧ (∃ name, m.bracket = .opens name) ∧ Uncovered paired past m.offset

section Run
variable {ms past rest stack inside outside left : List Mark} {paired : Nat → Nat → Prop} {a b : Nat}
  {name : List Char} {m : Mark}

theorem Stacked.nil (paired : Nat → Nat → Prop) : Stacked paired [] [] :=
  ⟨.nil, by simp⟩

variable (ascending : Ascending ms) (whole : ms = past ++ m :: rest)
include ascending whole

theorem offset_lt_of_mem_past {n : Mark} (before : n ∈ past) : n.offset < m.offset := by
  subst whole
  exact (List.pairwise_append.1 ascending).2.2 n before m List.mem_cons_self

theorem mem_past_iff {n : Mark} (listed : n ∈ ms) : n ∈ past ↔ n.offset < m.offset := by
  refine ⟨offset_lt_of_mem_past ascending whole, fun before => ?_⟩
  subst whole
  rcases List.mem_append.1 listed with here | behind
  · exact here
  · have later : ∀ n ∈ rest, m.offset < n.offset :=
      (List.pairwise_cons.1 (List.pairwise_append.1 ascending).2.1).1
    rcases List.mem_cons.1 behind with rfl | behind
    · exact absurd before (Nat.lt_irrefl _)
    · exact absurd (later n behind) (Nat.lt_asymm before)

variable (pairing : Pairing ms paired)
include pairing

theorem uncovered_iff_standing :
    a < m.offset ∧ Uncovered paired past a ↔ Standing paired a m.offset := by
  refine and_congr_right fun _ => forall₂_congr fun c d => forall_congr' fun pair => ?_
  obtain ⟨other, -, closes⟩ := pairing.marked pair
  have closed : d ∈ past.map Mark.offset ↔ d < m.offset := by
    rw [← mem_past_iff ascending whole closes, List.mem_map]
    constructor
    · rintro ⟨n, before, rfl⟩
      have listed : n ∈ ms := whole ▸ List.mem_append_left _ before
      rwa [ascending.eq_of_offset closes listed rfl]
    · exact fun before => ⟨_, before, rfl⟩
  rw [closed]

variable (stacked : Stacked paired past stack)
include stacked

/-- At the place that is reached, the stack holds what stands there. -/
theorem Stacked.mem_iff_standing :
    ⟨a, .opens name⟩ ∈ stack ↔ ⟨a, .opens name⟩ ∈ ms ∧ Standing paired a m.offset := by
  rw [stacked.mem_iff, ← uncovered_iff_standing ascending whole pairing]
  constructor
  · rintro ⟨before, -, out⟩
    exact ⟨whole ▸ List.mem_append_left _ before, offset_lt_of_mem_past ascending whole before, out⟩
  · rintro ⟨listed, before, out⟩
    exact ⟨(mem_past_iff ascending whole listed).2 before, ⟨name, rfl⟩, out⟩

end Run

section Step
variable {ms past rest stack inside outside : List Mark} {paired : Nat → Nat → Prop} {a b : Nat}
  {name : List Char}

theorem Stacked.skip (stacked : Stacked paired past stack) (unpaired : ∀ a, ¬ paired a b) :
    Stacked paired (past ++ [⟨b, .closes name⟩]) stack := by
  refine ⟨stacked.descending, fun n => ?_⟩
  rw [stacked.mem_iff, List.mem_append, List.mem_singleton, uncovered_concat]
  constructor
  · rintro ⟨before, opens, out⟩
    exact ⟨.inl before, opens, out, fun c pair => absurd pair (unpaired c)⟩
  · rintro ⟨before | rfl, opens, out, -⟩
    · exact ⟨before, opens, out⟩
    · obtain ⟨other, opens⟩ := opens
      cases opens

theorem Stacked.not_paired_of_end (pairing : Pairing ms paired) (stacked : Stacked paired ms stack)
    {n : Mark} (held : n ∈ stack) : ¬ n.Paired paired := by
  obtain ⟨before, ⟨other, opens⟩, out⟩ := (stacked.mem_iff n).1 held
  rintro ⟨d, pair⟩
  rw [Mark.Partner, opens] at pair
  obtain ⟨_, -, closes⟩ := pairing.marked pair
  have := pairing.lt pair
  have := out _ d pair (List.mem_map_of_mem (f := Mark.offset) closes)
  omega

variable (ascending : Ascending ms) (pairing : Pairing ms paired)
include ascending pairing

section Drop
variable (stacked : Stacked paired past (inside ++ ⟨a, .opens name⟩ :: outside))
  (whole : ms = past ++ ⟨b, .closes name⟩ :: rest) (pair : paired a b)
include stacked whole pair

theorem Stacked.drop : Stacked paired (past ++ [⟨b, .closes name⟩]) outside := by
  obtain ⟨-, below, above⟩ := List.pairwise_append.1 stacked.descending
  obtain ⟨lower, descending⟩ := List.pairwise_cons.1 below
  refine ⟨descending, fun n => ?_⟩
  rw [List.mem_append, List.mem_singleton, uncovered_concat]
  constructor
  · intro held
    obtain ⟨before, opens, out⟩ := (stacked.mem_iff n).1 (List.mem_append_right _ (List.mem_cons_of_mem _ held))
    refine ⟨.inl before, opens, out, fun c pair' => .inr ?_⟩
    rw [pairing.left_unique ascending pair' pair]
    exact lower n held
  · rintro ⟨before | rfl, opens, out, last⟩
    · have held := (stacked.mem_iff n).2 ⟨before, opens, out⟩
      have early := offset_lt_of_mem_past ascending whole before
      have under : n.offset < a := (last a pair).resolve_left (Nat.lt_asymm early)
      rcases List.mem_append.1 held with inner | outer
      · exact absurd under (Nat.lt_asymm (above n inner _ List.mem_cons_self))
      · rcases List.mem_cons.1 outer with rfl | outer
        · exact absurd under (Nat.lt_irrefl _)
        · exact outer
    · obtain ⟨other, opens⟩ := opens
      cases opens

/-- A partner would have to stand where the stack no longer holds the opening. -/
theorem Stacked.not_paired_of_inside {n : Mark} (inner : n ∈ inside) : ¬ n.Paired paired := by
  obtain ⟨before, ⟨other, opens⟩, out⟩ := (stacked.mem_iff n).1 (List.mem_append_left _ inner)
  have early := offset_lt_of_mem_past ascending whole before
  have above := (List.pairwise_append.1 stacked.descending).2.2 n inner _ List.mem_cons_self
  have standing := (uncovered_iff_standing ascending whole pairing).1 ⟨early, out⟩
  rintro ⟨d, pair'⟩
  rw [Mark.Partner, opens] at pair'
  have := pairing.lt pair'
  rcases Nat.lt_trichotomy d b with earlier | rfl | later
  · have := standing.2 _ d pair' earlier
    omega
  · have := pairing.left_unique ascending pair pair'
    simp at above
    omega
  · have := (pairing.standing pair').2 a b pair later
    simp at above early
    omega

end Drop

theorem Stacked.paired_iff (stacked : Stacked paired past stack)
    (whole : ms = past ++ ⟨b, .closes name⟩ :: rest) :
    paired a b ↔ IsGreatest {a | ⟨a, .opens name⟩ ∈ stack} a := by
  have listed : ⟨b, .closes name⟩ ∈ ms := whole ▸ List.mem_append_right _ List.mem_cons_self
  have same : {a | ⟨a, .opens name⟩ ∈ stack} = {a | ⟨a, .opens name⟩ ∈ ms ∧ Standing paired a b} := by
    ext a
    exact stacked.mem_iff_standing ascending whole pairing
  rw [pairing a b, same]
  constructor
  · rintro ⟨other, closes, greatest⟩
    cases ascending.eq_of_offset listed closes rfl
    exact greatest
  · exact fun greatest => ⟨name, listed, greatest⟩

theorem Stacked.push (stacked : Stacked paired past stack) (whole : ms = past ++ ⟨a, .opens name⟩ :: rest) :
    Stacked paired (past ++ [⟨a, .opens name⟩]) (⟨a, .opens name⟩ :: stack) := by
  have listed : ⟨a, .opens name⟩ ∈ ms := whole ▸ List.mem_append_right _ List.mem_cons_self
  have unpaired : ∀ c, ¬ paired c a := fun c => pairing.not_of_opens ascending listed
  refine ⟨List.pairwise_cons.2 ⟨fun n held => ?_, stacked.descending⟩, fun n => ?_⟩
  · exact offset_lt_of_mem_past ascending whole ((stacked.mem_iff n).1 held).1
  · rw [List.mem_cons, stacked.mem_iff, List.mem_append, List.mem_singleton, uncovered_concat]
    constructor
    · rintro (rfl | ⟨before, opens, out⟩)
      · refine ⟨.inr rfl, ⟨name, rfl⟩, fun c d pair earlier => .inl ?_, fun c pair => absurd pair (unpaired c)⟩
        obtain ⟨n, before, rfl⟩ := List.mem_map.1 earlier
        exact offset_lt_of_mem_past ascending whole before
      · exact ⟨.inl before, opens, out, fun c pair => absurd pair (unpaired c)⟩
    · rintro ⟨before | rfl, opens, out, -⟩
      · exact .inr ⟨before, opens, out⟩
      · exact .inl rfl

theorem Stacked.paired_of_topmost (stacked : Stacked paired past (inside ++ ⟨a, .opens name⟩ :: outside))
    (whole : ms = past ++ ⟨b, .closes name⟩ :: rest) (others : ∀ m ∈ inside, m.bracket ≠ .opens name) :
    paired a b := by
  apply (stacked.paired_iff ascending pairing whole).2
  refine ⟨List.mem_append_right _ List.mem_cons_self, fun c held => ?_⟩
  rcases List.mem_append.1 held with inner | outer
  · exact absurd rfl (others _ inner)
  · obtain ⟨lower, -⟩ := List.pairwise_cons.1 (List.pairwise_append.1 stacked.descending).2.1
    rcases List.mem_cons.1 outer with same | outer
    · cases same
      exact Nat.le_refl _
    · exact Nat.le_of_lt (lower _ outer)

end Step

open Classical in
/-- A run leaves exactly the tags without partner. -/
theorem Leaves.perm {ms past stack rest left : List Mark} {paired : Nat → Nat → Prop}
    (ascending : Ascending ms) (pairing : Pairing ms paired) (run : Leaves stack rest left)
    (whole : ms = past ++ rest) (stacked : Stacked paired past stack) :
    left.Perm ((stack ++ rest).filter fun m => ¬ m.Paired paired) := by
  induction run generalizing past with
  | done stack =>
      rw [List.append_nil] at whole ⊢
      subst whole
      have unpaired : ∀ m ∈ stack, decide (¬ m.Paired paired) = true := fun m held =>
        decide_eq_true (stacked.not_paired_of_end pairing held)
      rw [List.filter_eq_self.2 unpaired]
      exact List.reverse_perm stack
  | opens a name behind ih =>
      have onward := ih (by simpa using whole) (stacked.push ascending pairing whole)
      exact onward.trans (List.perm_middle.symm.filter _)
  | @closes inside outside rest left a b name others behind ih =>
      have pair := stacked.paired_of_topmost ascending pairing whole others
      have onward := ih (by simpa using whole) (stacked.drop ascending pairing whole pair)
      have unpaired : ∀ m ∈ inside, decide (¬ m.Paired paired) = true := fun m inner =>
        decide_eq_true (stacked.not_paired_of_inside ascending pairing whole pair inner)
      have opening : (⟨a, .opens name⟩ : Mark).Paired paired := ⟨b, pair⟩
      have closing : (⟨b, .closes name⟩ : Mark).Paired paired := ⟨a, pair⟩
      rw [List.append_assoc, List.filter_append, List.filter_eq_self.2 unpaired, List.cons_append,
        List.filter_cons_of_neg (by simpa using opening), List.filter_append,
        List.filter_cons_of_neg (by simpa using closing), ← List.filter_append]
      exact (List.reverse_perm inside).append onward
  | @stray stack rest left b name others behind ih =>
      have unpaired : ∀ a, ¬ paired a b := fun a pair =>
        others _ ((stacked.paired_iff ascending pairing whole).1 pair).1 rfl
      have onward := ih (by simpa using whole) (stacked.skip unpaired)
      have closing : ¬ (⟨b, .closes name⟩ : Mark).Paired paired := fun ⟨a, pair⟩ => unpaired a pair
      have middle : (stack ++ ⟨b, .closes name⟩ :: rest).Perm (⟨b, .closes name⟩ :: (stack ++ rest)) :=
        List.perm_middle
      have moved := middle.filter fun m => decide (¬ m.Paired paired)
      rw [List.filter_cons_of_pos (by simpa using closing)] at moved
      exact (onward.cons _).trans moved.symm

end Prompt.Template
