import Mathlib.Data.List.Count
import Mathlib.Data.List.Nodup
import Prompt.Proofs.Table
import Prompt.Section.Cycle

/-!
# What peeling leaves

The counts of a peeling are those of the links to ids that are left, and what waits are the ids that
are left without such a link (`Peeling.Sound`). A turn keeps that (`Sound.take`), and at the end nothing
waits. What is left is the greatest set of ids in which each one has a link into the set (`mem_peel`);
the order in which ids were taken away does not show.
-/

namespace Prompt.Cycle

variable {links : List Link} {ids : List String}

/-- Every id of the set has a link into the set. -/
def Supported (links : List Link) (kept : String → Prop) : Prop :=
  ∀ id, kept id → ∃ target, kept target ∧ ⟨id, target⟩ ∈ links

def degree (links : List Link) (left : List String) (id : String) : Nat :=
  links.countP fun l => l.source == id && left.contains l.target

theorem degree_eq_zero {left : List String} {id : String} :
    degree links left id = 0 ↔ ∀ target ∈ left, ⟨id, target⟩ ∉ links := by
  rw [degree, List.countP_eq_zero]
  constructor
  · intro unlinked target member linked
    simpa [member] using unlinked _ linked
  · rintro absent ⟨source, target⟩ linked
    simp only [Bool.and_eq_true, beq_iff_eq, List.contains_iff_mem, not_and]
    rintro rfl member
    exact absent target member linked

theorem degree_filter_ne {left : List String} {id : String} (present : id ∈ left) (other : String) :
    degree links left other = degree links (left.filter fun x => x != id) other +
      ((links.filter fun l => l.target == id).map Link.source).count other := by
  unfold degree
  induction links with
  | nil => rfl
  | cons l links ih =>
      rw [List.countP_cons, List.countP_cons, ih, List.filter_cons]
      by_cases here : l.target = id
      · by_cases own : l.source = other <;> simp [here, own, present, Nat.add_assoc]
      · simp [here, Nat.add_right_comm]

namespace Peeling

/-! ### Lowering counts -/

/-- What waits has no count above zero, and waits once. -/
structure Quiet (p : Peeling) : Prop where
  nodup : p.waiting.Nodup
  low : ∀ id ∈ p.waiting, ∀ n, p.counts.get? id = some n → n ≤ 0

/-- The counts are lower by the number of times that an id is listed; what has come down to zero
waits. -/
structure Lowered (listed : List String) (p q : Peeling) : Prop where
  left : q.left = p.left
  counts : ∀ id, q.counts.get? id = (p.counts.get? id).map fun n => n - (listed.count id : Int)
  waiting : ∀ id, id ∈ q.waiting ↔
    id ∈ p.waiting ∨ ∃ n, p.counts.get? id = some n ∧ 0 < n ∧ n ≤ (listed.count id : Int)

theorem Lowered.nil (p : Peeling) : Lowered [] p p where
  left := rfl
  counts := fun id => by cases p.counts.get? id <;> simp
  waiting := fun id => by
    rw [iff_self_or, List.count_nil]
    rintro ⟨n, -, positive, low⟩
    omega

theorem Lowered.append {xs ys : List String} {p q r : Peeling} (first : Lowered xs p q)
    (second : Lowered ys q r) : Lowered (xs ++ ys) p r where
  left := second.left.trans first.left
  counts := fun id => by
    rw [second.counts, first.counts, List.count_append]
    cases p.counts.get? id with
    | none => rfl
    | some n => simp only [Option.map_some, Int.natCast_add, Int.sub_sub]
  waiting := fun id => by
    rw [second.waiting, first.waiting, first.counts, List.count_append, or_assoc]
    cases p.counts.get? id with
    | none => simp
    | some n =>
        simp only [Option.map_some, Option.some.injEq, exists_eq_left', Int.natCast_add]
        exact or_congr_right (by omega)

theorem lower_of_counted {p : Peeling} {id : String} {n : Int} (counted : p.counts.get? id = some n) :
    p.lower id = { p with
      counts := p.counts.insert id (n - 1)
      waiting := if n = 1 then p.waiting ++ [id] else p.waiting } := by
  rw [lower, counted]

theorem lower_lowered (p : Peeling) (id : String) : Lowered [id] p (p.lower id) := by
  cases counted : p.counts.get? id with
  | none =>
      have same : p.lower id = p := by rw [lower, counted]
      rw [same]
      refine ⟨rfl, fun other => ?_, fun other => ?_⟩
      · by_cases own : id = other
        · simp [← own, counted]
        · cases p.counts.get? other <;> simp [own]
      · by_cases own : id = other
        · simp [← own, counted]
        · simp only [List.count_singleton, beq_iff_eq, own, if_false, iff_self_or]
          rintro ⟨n, -, positive, low⟩
          omega
  | some n =>
      rw [lower_of_counted counted]
      refine ⟨rfl, fun other => ?_, fun other => ?_⟩
      · dsimp only
        rw [Entries.get?_insert]
        by_cases own : id = other
        · simp [← own, counted]
        · cases p.counts.get? other <;> simp [own]
      · dsimp only
        by_cases own : id = other
        · subst own
          simp only [counted, List.count_singleton_self, Option.some.injEq, exists_eq_left']
          split <;> simp <;> omega
        · have none_lowered : ¬ ∃ m, p.counts.get? other = some m ∧ 0 < m ∧
              m ≤ ([id].count other : Int) := by
            rintro ⟨m, -, positive, low⟩
            simp only [List.count_singleton, beq_iff_eq, own, if_false] at low
            omega
          simp only [none_lowered, or_false]
          split <;> simp [Ne.symm own]

theorem Quiet.lower {p : Peeling} (quiet : p.Quiet) (id : String) : (p.lower id).Quiet := by
  cases counted : p.counts.get? id with
  | none =>
      rw [Peeling.lower, counted]
      exact quiet
  | some n =>
      rw [lower_of_counted counted]
      have fresh : n = 1 → id ∉ p.waiting := by
        rintro rfl member
        exact absurd (quiet.low id member 1 counted) (by decide)
      constructor
      · dsimp only
        split
        · next one => exact List.nodup_append.mpr ⟨quiet.nodup, List.nodup_singleton id,
            fun other member last single => by
              rw [List.mem_singleton.mp single]
              rintro rfl
              exact fresh one member⟩
        · exact quiet.nodup
      · intro other member m found
        dsimp only at member found
        rw [Entries.get?_insert] at found
        by_cases own : id = other
        · subst own
          simp only [if_true, Option.some.injEq] at found
          split at member
          · omega
          · have low := quiet.low id member n counted
            omega
        · rw [if_neg own] at found
          refine quiet.low other ?_ m found
          split at member
          · simpa [Ne.symm own] using member
          · exact member

theorem foldl_lower (listed : List String) {p : Peeling} (quiet : p.Quiet) :
    Lowered listed p (listed.foldl lower p) ∧ (listed.foldl lower p).Quiet := by
  induction listed generalizing p with
  | nil => exact ⟨.nil p, quiet⟩
  | cons id listed ih =>
      obtain ⟨lowered, quiet'⟩ := ih (quiet.lower id)
      exact ⟨(p.lower_lowered id).append lowered, quiet'⟩

/-! ### One turn -/

theorem left_take (links : List Link) (p : Peeling) (id : String) :
    (p.take links id).left = p.left.filter fun other => other != id := by
  have kept (listed : List String) (p : Peeling) : (listed.foldl lower p).left = p.left := by
    induction listed generalizing p with
    | nil => rfl
    | cons other listed ih => exact (ih _).trans (p.lower_lowered other).left
  exact kept _ _

structure Sound (links : List Link) (ids : List String) (p : Peeling) : Prop where
  left_subset : p.left ⊆ ids
  left_nodup : p.left.Nodup
  counted : ∀ id, p.counts.get? id = if id ∈ ids then some (degree links p.left id : Int) else none
  waiting_nodup : p.waiting.Nodup
  mem_waiting : ∀ id, id ∈ p.waiting ↔ id ∈ p.left ∧ degree links p.left id = 0
  gone : ∀ id ∈ ids, id ∉ p.left → degree links p.left id = 0

theorem start_sound (nodup : ids.Nodup) (closed : ∀ l ∈ links, l.target ∈ ids) :
    (start links ids).Sound links ids := by
  have own (id : String) : degree links ids id = (links.filter fun l => l.source == id).length := by
    rw [degree, ← List.countP_eq_length_filter]
    apply List.countP_congr
    intro l linked
    simp [closed l linked]
  refine ⟨List.Subset.refl _, nodup, fun id => ?_, ?_, fun id => ?_, fun id member absent => absurd member absent⟩
  · simp only [start, Entries.get?_map_pair, own]
  · simp only [start, List.filter_map, List.map_map, Function.comp_def, List.map_id']
    exact nodup.filter _
  · change id ∈ (start links ids).waiting ↔ id ∈ ids ∧ degree links ids id = 0
    rw [own]
    simp [start]

variable {p : Peeling}

theorem Sound.quiet_erase (sound : p.Sound links ids) (id : String) (left : List String) :
    Quiet { p with left, waiting := p.waiting.erase id } := by
  refine ⟨sound.waiting_nodup.erase id, fun other member n found => ?_⟩
  obtain ⟨-, none_left⟩ := (sound.mem_waiting other).mp (List.mem_of_mem_erase member)
  rw [sound.counted] at found
  split at found
  · rw [none_left, Option.some.injEq] at found
    omega
  · cases found

theorem Sound.take (sound : p.Sound links ids) {id : String} (waits : id ∈ p.waiting) :
    (p.take links id).Sound links ids ∧ (p.take links id).left = p.left.filter fun x => x != id := by
  obtain ⟨present, unlinked⟩ := (sound.mem_waiting id).mp waits
  have split := @degree_filter_ne links _ _ present
  obtain ⟨lowered, quiet⟩ := foldl_lower ((links.filter fun l => l.target == id).map Link.source)
    (sound.quiet_erase id (p.left.filter fun x => x != id))
  rw [← Peeling.take] at lowered quiet
  have left := lowered.left
  dsimp only at left
  refine ⟨⟨?_, ?_, fun other => ?_, quiet.nodup, fun other => ?_, fun other member absent => ?_⟩, left⟩
  · rw [left]
    exact List.Subset.trans (List.filter_subset_self _) sound.left_subset
  · rw [left]
    exact sound.left_nodup.filter _
  · rw [lowered.counts, sound.counted, left]
    by_cases member : other ∈ ids
    · simp only [member, if_true, Option.map_some, split other, Option.some.injEq]
      omega
    · simp [member]
  · rw [lowered.waiting, left, sound.waiting_nodup.mem_erase_iff, sound.mem_waiting, sound.counted,
      List.mem_filter, bne_iff_ne]
    have sum := split other
    constructor
    · rintro (⟨apart, member, none_left⟩ | ⟨n, found, positive, low⟩)
      · exact ⟨⟨member, apart⟩, by omega⟩
      · -- Its last links led to the id that was taken; the id itself had none.
        split at found
        · next listed =>
            obtain rfl := Option.some.inj found
            refine ⟨⟨?_, ?_⟩, by omega⟩
            · by_contra absent
              have := sound.gone other listed absent
              omega
            · rintro rfl
              omega
        · cases found
    · rintro ⟨⟨member, apart⟩, none_left⟩
      rcases Nat.eq_zero_or_pos (degree links p.left other) with before | before
      · exact .inl ⟨apart, member, before⟩
      · exact .inr ⟨_, if_pos (sound.left_subset member), by omega, by omega⟩
  · rw [left] at absent ⊢
    have sum := split other
    by_cases before : other ∈ p.left
    · obtain rfl : other = id := by simpa [before] using absent
      omega
    · have := sound.gone other member before
      omega

/-! ### All turns -/

theorem Sound.turns (sound : p.Sound links ids) (turns : Nat) :
    (Peeling.run links turns p).Sound links ids := by
  induction turns generalizing p with
  | zero => exact sound
  | succ turns ih =>
      unfold Peeling.run
      split
      · exact sound
      · next id rest waiting => exact ih (sound.take (by simp [waiting])).1

theorem Sound.run (sound : p.Sound links ids) {steps : Nat} (enough : p.left.length ≤ steps) :
    (run links steps p).Sound links ids ∧ (run links steps p).waiting = [] := by
  refine ⟨sound.turns steps, ?_⟩
  induction steps generalizing p with
  | zero =>
      have empty : p.left = [] := List.length_eq_zero_iff.mp (by omega)
      refine List.eq_nil_iff_forall_not_mem.mpr fun id waits => ?_
      simpa [empty] using ((sound.mem_waiting id).mp waits).1
  | succ steps ih =>
      unfold Peeling.run
      split
      · next ended => exact ended
      · next id rest waiting =>
          have waits : id ∈ p.waiting := by simp [waiting]
          obtain ⟨sound', left⟩ := sound.take waits
          refine ih sound' ?_
          have present := ((sound.mem_waiting id).mp waits).1
          have less : (p.left.filter fun x => x != id).length < p.left.length :=
            List.length_filter_lt_length_iff_exists.mpr ⟨id, present, by simp⟩
          rw [left]
          omega

theorem Sound.supported (sound : p.Sound links ids) (ended : p.waiting = []) :
    Supported links fun id => id ∈ p.left := by
  intro id present
  have linked : degree links p.left id ≠ 0 := by
    intro none_left
    simpa [ended] using (sound.mem_waiting id).mpr ⟨present, none_left⟩
  rw [Ne, degree_eq_zero] at linked
  push Not at linked
  exact linked

/-- A turn takes no id away that is supported by what is left. -/
theorem Sound.keeps_run (sound : p.Sound links ids) {kept : String → Prop}
    (supported : Supported links kept) (present : ∀ id, kept id → id ∈ p.left) (steps : Nat) :
    ∀ id, kept id → id ∈ (Peeling.run links steps p).left := by
  induction steps generalizing p with
  | zero => exact present
  | succ steps ih =>
      unfold Peeling.run
      split
      · exact present
      · next id rest waiting =>
          have waits : id ∈ p.waiting := by simp [waiting]
          obtain ⟨sound', left⟩ := sound.take waits
          refine ih sound' fun other member => ?_
          rw [left, List.mem_filter, bne_iff_ne]
          refine ⟨present other member, ?_⟩
          rintro rfl
          obtain ⟨target, keeps, linked⟩ := supported other member
          exact degree_eq_zero.mp ((sound.mem_waiting other).mp waits).2 target
            (present target keeps) linked

/-! ### The counts in between -/

/-- Inside a turn: `id` has been taken away, and of the links to it the first ones, `done` in number, have
been counted off. -/
def taking (links : List Link) (p : Peeling) (id : String) (done : Nat) : Peeling :=
  (((links.filter fun l => l.target == id).map Link.source).take done).foldl lower
    { p with left := p.left.filter fun other => other != id, waiting := p.waiting.erase id }

/-- A moment of a peeling: some turns are over, and of the next one some links have been counted off. -/
def moment (links : List Link) (ids : List String) (turns done : Nat) : Peeling :=
  let p := Peeling.run links turns (start links ids)
  match p.waiting with
  | [] => p
  | id :: _ => taking links p id done

theorem Sound.nonneg_taking (sound : p.Sound links ids) {id : String} (waits : id ∈ p.waiting)
    (done : Nat) {other : String} {n : Int}
    (counted : (taking links p id done).counts.get? other = some n) : 0 ≤ n := by
  have split := @degree_filter_ne links _ _ ((sound.mem_waiting id).mp waits).1 other
  have some_of_all := (List.take_sublist done
    ((links.filter fun l => l.target == id).map Link.source)).count_le other
  obtain ⟨lowered, -⟩ := foldl_lower (((links.filter fun l => l.target == id).map Link.source).take done)
    (sound.quiet_erase id (p.left.filter fun x => x != id))
  rw [taking, lowered.counts, sound.counted] at counted
  split at counted
  · rw [Option.map_some, Option.some.injEq] at counted
    omega
  · cases counted

theorem nonneg_moment (nodup : ids.Nodup) (closed : ∀ l ∈ links, l.target ∈ ids) (turns done : Nat)
    {id : String} {n : Int} (counted : (moment links ids turns done).counts.get? id = some n) :
    0 ≤ n := by
  have sound := (start_sound nodup closed).turns turns
  unfold moment at counted
  dsimp only at counted
  split at counted
  · rw [sound.counted] at counted
    split at counted
    · rw [← Option.some.inj counted]
      exact Int.natCast_nonneg _
    · cases counted
  · next taken rest waiting => exact sound.nonneg_taking (by simp [waiting]) done counted

end Peeling

theorem peel_sublist (links : List Link) (ids : List String) : (peel links ids).Sublist ids := by
  have turns (steps : Nat) (p : Peeling) : (Peeling.run links steps p).left.Sublist p.left := by
    induction steps generalizing p with
    | zero => exact .refl _
    | succ steps ih =>
        unfold Peeling.run
        split
        · exact .refl _
        · exact (ih _).trans (Peeling.left_take links p _ ▸ List.filter_sublist)
  exact turns ids.length (Peeling.start links ids)

section
variable (nodup : ids.Nodup) (closed : ∀ l ∈ links, l.target ∈ ids)
include nodup closed

theorem supported_peel : Supported links fun id => id ∈ peel links ids := by
  obtain ⟨sound, ended⟩ := (Peeling.start_sound nodup closed).run (Nat.le_refl ids.length)
  exact sound.supported ended

theorem mem_peel {id : String} : id ∈ peel links ids ↔
    ∃ kept : String → Prop, kept id ∧ Supported links kept ∧ ∀ other, kept other → other ∈ ids := by
  constructor
  · intro member
    exact ⟨_, member, supported_peel nodup closed, fun other left =>
      (peel_sublist links ids).subset left⟩
  · rintro ⟨kept, member, supported, present⟩
    exact (Peeling.start_sound nodup closed).keeps_run supported present ids.length id member

end

end Prompt.Cycle
