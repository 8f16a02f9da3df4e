import Prompt.Proofs.Order.Acyclic

/-!
# What the run keeps of the order of the list

A visit enters only what the visited position leads to (`reaches_of_mem_entered`), and what has been left
stays in front (`left_suffix_visit`). So a section that nothing before it leads to waits for its turn
(`place_lt_of_not_reaches`). A list from which nothing has to be moved ahead stays as it is
(`resolve_eq_self`), and without cycles the order of the run is such a list (`resolve_resolve`).
-/

namespace Prompt.Order
open Relation

variable {sections : List Section}

/-! ### Visits -/

section Visits
variable {fuel : Nat}

/-- Visits in a row, given what one of them enters. -/
theorem exists_reaches_of_mem_foldl
    (step : ∀ w i, ∀ k ∈ (visit sections fuel w i).entered, k ∈ w.entered ∨ Reaches sections i k)
    (targets : List Nat) (w : Walk) : ∀ k ∈ (targets.foldl (visit sections fuel) w).entered,
      k ∈ w.entered ∨ ∃ i ∈ targets, Reaches sections i k := by
  refine List.foldlRecOn targets (visit sections fuel)
    (motive := fun w' : Walk => ∀ k ∈ w'.entered, k ∈ w.entered ∨ ∃ i ∈ targets, Reaches sections i k) ?_ ?_
  · exact fun k member => Or.inl member
  · intro w' reached i listed k member
    rcases step w' i k member with before | beyond
    · exact reached k before
    · exact Or.inr ⟨i, listed, beyond⟩

theorem reaches_of_mem_entered (fuel : Nat) (w : Walk) (i : Nat) :
    ∀ k ∈ (visit sections fuel w i).entered, k ∈ w.entered ∨ Reaches sections i k := by
  induction fuel generalizing w i with
  | zero => exact fun k member => Or.inl member
  | succ fuel ih =>
      by_cases fresh : i ∈ w.entered
      · simp only [visit, fresh, if_true]
        exact fun k member => Or.inl member
      · simp only [visit, fresh, if_false]
        intro k member
        rcases exists_reaches_of_mem_foldl ih _ _ k member with before | ⟨j, depends, beyond⟩
        · rcases List.mem_cons.mp before with rfl | before
          · exact Or.inr .refl
          · exact Or.inl before
        · exact Or.inr (.head (mem_dependencies.mp depends) beyond)

theorem left_suffix_foldl (step : ∀ w i, w.left <:+ (visit sections fuel w i).left) (targets : List Nat)
    (w : Walk) : w.left <:+ (targets.foldl (visit sections fuel) w).left :=
  List.foldlRecOn targets (visit sections fuel) (motive := fun w' : Walk => w.left <:+ w'.left)
    (List.suffix_refl w.left) fun w' kept i _ => kept.trans (step w' i)

theorem left_suffix_visit (fuel : Nat) (w : Walk) (i : Nat) :
    w.left <:+ (visit sections fuel w i).left := by
  induction fuel generalizing w i with
  | zero => exact List.suffix_refl _
  | succ fuel ih =>
      by_cases fresh : i ∈ w.entered
      · simp only [visit, fresh, if_true, List.suffix_refl]
      · simp only [visit, fresh, if_false]
        exact (left_suffix_foldl ih _ { w with entered := i :: w.entered }).trans (List.suffix_cons i _)

end Visits

/-! ### Places -/

/-- The first visits, up to that of a position, give a part of the run that has this position, and nothing
to which none of the visited ones leads. -/
theorem exists_first_part {i : Nat} (bound : i < sections.length) :
    ∃ before after, positions sections = before ++ after ∧ i ∈ before ∧
      ∀ j ∈ before, ∃ k ≤ i, Reaches sections k j := by
  have rest : List.range sections.length =
      List.range (i + 1) ++ (List.range (sections.length - (i + 1))).map (i + 1 + ·) := by
    rw [← List.range_add, Nat.add_sub_cancel' bound]
  obtain ⟨sound, idle, -, entered⟩ := walk_all (List.range (i + 1))
    (fun j member => (List.mem_range.mp member).trans_le bound) {} Walk.Sound.start
    (by simp [Walk.Pending])
  obtain ⟨first, here⟩ : ∃ w, w = (List.range (i + 1)).foldl (visit sections sections.length) {} :=
    ⟨_, rfl⟩
  rw [← here] at sound idle entered
  obtain ⟨later, split⟩ : first.left <:+
      ((List.range sections.length).foldl (visit sections sections.length) {}).left := by
    rw [rest, List.foldl_append, ← here]
    exact left_suffix_foldl (left_suffix_visit _) _ first
  refine ⟨first.left.reverse, later.reverse, ?_, ?_, ?_⟩
  · rw [positions, ← split, List.reverse_append]
  · by_contra absent
    exact idle i ⟨entered i (List.self_mem_range_succ), mt List.mem_reverse.mpr absent⟩
  · intro j member
    have reached := sound.left_subset (List.mem_reverse.mp member)
    rw [here] at reached
    rcases exists_reaches_of_mem_foldl (reaches_of_mem_entered _) _ _ j reached with empty | ⟨k, listed, reaches⟩
    · cases empty
    · exact ⟨k, Nat.lt_succ_iff.mp (List.mem_range.mp listed), reaches⟩

theorem place_lt_of_not_reaches {i j : Nat} (bound : i < sections.length)
    (apart : ∀ k ≤ i, ¬ Reaches sections k j) : place sections i < place sections j := by
  obtain ⟨before, after, split, member, reached⟩ := exists_first_part bound
  have absent : j ∉ before := fun there =>
    let ⟨k, earlier, reaches⟩ := reached j there
    apart k earlier reaches
  rw [place, place, split, List.idxOf_append_of_mem member, List.idxOf_append_of_notMem absent]
  exact (List.idxOf_lt_length_of_mem member).trans_le (Nat.le_add_right _ _)

/-- Where the run keeps the order of some positions, it holds them as the list does. -/
theorem filter_positions {p : Nat → Bool}
    (kept : ∀ i j, i < j → j < sections.length → p i = true → p j = true →
      place sections i < place sections j) :
    (positions sections).filter p = (List.range sections.length).filter p := by
  have ascending : ((positions sections).filter p).Pairwise (· < ·) := by
    refine List.pairwise_filter.mpr (List.pairwise_iff_getElem.mpr ?_)
    intro a b bound bound' less first second
    have placed (k : Nat) (bound : k < (positions sections).length) :
        place sections (positions sections)[k] = k := (positions_nodup sections).idxOf_getElem k bound
    rcases Nat.lt_trichotomy (positions sections)[a] (positions sections)[b] with ahead | same | behind
    · exact ahead
    · exact absurd ((positions_nodup sections).getElem_inj_iff.mp same) less.ne
    · have swapped := kept _ _ behind (mem_positions.mp (List.getElem_mem bound)) second first
      rw [placed, placed] at swapped
      exact absurd swapped less.asymm
  exact List.Perm.eq_of_pairwise (fun i j _ _ less less' => absurd less' less.asymm) ascending
    (List.pairwise_lt_range.filter p) ((positions_perm sections).filter p)

/-! ### Repeated ids -/

theorem first?_le {name : String} {i k : Nat} {s : Section} (first : first? sections name = some i)
    (found : sections[k]? = some s) (own : s.id = name) : i ≤ k := by
  obtain ⟨_, -, least⟩ := List.findIdx?_eq_some_iff_getElem.mp first
  obtain ⟨_, rfl⟩ := List.getElem?_eq_some_iff.mp found
  by_contra earlier
  exact least k (Nat.lt_of_not_le earlier) (beq_iff_eq.mpr own)

/-- Only a first definition is ever moved ahead of its turn. -/
theorem place_lt_of_repeated {i j : Nat} {s t : Section} (less : i < j)
    (first : sections[i]? = some s) (second : sections[j]? = some t) (same : s.id = t.id) :
    place sections i < place sections j := by
  refine place_lt_of_not_reaches (List.getElem?_eq_some_iff.mp first).1 fun k earlier reaches => ?_
  rcases reaches.cases_tail with rfl | ⟨m, -, -, -, name, -, named⟩
  · exact absurd less earlier.not_gt
  · obtain ⟨d, found, own, -⟩ := first?_eq_some named
    rw [second] at found
    cases found
    exact absurd less (first?_le named first (same.trans own)).not_gt

theorem filter_resolve (sections : List Section) (id : String) :
    (resolve sections).filter (fun s => s.id == id) = sections.filter fun s => s.id == id := by
  let named (i : Nat) : Bool := sections[i]?.map Section.id == some id
  have taken (is : List Nat) : (is.filterMap fun i => sections[i]?).filter (fun s => s.id == id) =
      (is.filter named).filterMap fun i => sections[i]? := by
    rw [List.filter_filterMap, List.filterMap_filter]
    refine List.filterMap_congr fun i _ => ?_
    cases found : sections[i]? with
    | none => simp
    | some s => by_cases own : s.id = id <;> simp [named, found, own]
  have kept : (positions sections).filter named = (List.range sections.length).filter named := by
    refine filter_positions fun i j less _ first second => ?_
    obtain ⟨s, found, own⟩ := Option.map_eq_some_iff.mp (beq_iff_eq.mp first)
    obtain ⟨t, found', own'⟩ := Option.map_eq_some_iff.mp (beq_iff_eq.mp second)
    exact place_lt_of_repeated less found found' (own.trans own'.symm)
  rw [resolve, taken, kept, ← taken, filterMap_range_getElem?]

/-! ### Lists in order -/

theorem resolve_eq_self (ordered : ∀ i j, DependsOn sections i j → j < i) : resolve sections = sections := by
  have within {k j : Nat} (reaches : Reaches sections k j) : j ≤ k := by
    induction reaches with
    | refl => exact Nat.le_refl k
    | tail _ depends ih => exact ((ordered _ _ depends).trans_le ih).le
  have kept : (positions sections).filter (fun _ => true) =
      (List.range sections.length).filter fun _ => true :=
    filter_positions fun i j less bound _ _ => place_lt_of_not_reaches (less.trans bound)
      fun k earlier reaches => absurd less ((within reaches).trans earlier).not_gt
  rw [List.filter_true, List.filter_true] at kept
  rw [resolve, kept, filterMap_range_getElem?]

theorem place_lt_of_acyclic (acyclic : ∀ i, ¬ TransGen (DependsOn sections) i i) {i j : Nat}
    (depends : DependsOn sections i j) : place sections j < place sections i := by
  obtain ⟨s, found, -⟩ := id depends
  rcases place_lt_or_reaches (List.getElem?_eq_some_iff.mp found).1 depends with earlier | back
  · exact earlier
  · exact absurd (.head' depends back) (acyclic i)

theorem dependsOn_resolve_lt (acyclic : ∀ i, ¬ TransGen (DependsOn sections) i i) {a b : Nat}
    (depends : DependsOn (resolve sections) a b) : b < a := by
  obtain ⟨s, found, name, named, first⟩ := depends
  rw [getElem?_resolve, Option.bind_eq_some_iff] at found
  obtain ⟨i, listed, found⟩ := found
  obtain ⟨bound, rfl⟩ := List.getElem?_eq_some_iff.mp listed
  have defined : name ∈ sections.map Section.id :=
    ((resolve_perm sections).map Section.id).mem_iff.mp (mem_ids_of_first? first)
  obtain ⟨j, first'⟩ := exists_first? defined
  have earlier := place_lt_of_acyclic acyclic ⟨s, found, name, named, first'⟩
  rw [place, place, (positions_nodup sections).idxOf_getElem a bound] at earlier
  obtain ⟨d, there, own, -⟩ := first?_eq_some first'
  rw [← getElem?_resolve_place (first?_lt first')] at there
  exact (first?_le first there own).trans_lt earlier

theorem resolve_resolve (acyclic : ∀ i, ¬ TransGen (DependsOn sections) i i) :
    resolve (resolve sections) = resolve sections :=
  resolve_eq_self fun _ _ => dependsOn_resolve_lt acyclic

/-- A definition comes behind another one that stands before it in the list, unless the other one or
something before that leads to it. So definitions of one id stay in order, and so does a list in which
everything comes behind what it depends on. Without cycles the order of the run is such a list. -/
theorem resolve_stable (sections : List Section) :
    (∀ i < sections.length, (resolve sections)[place sections i]? = sections[i]?) ∧
    (∀ i j, i < j → j < sections.length → (∀ k ≤ i, ¬ Reaches sections k j) →
      place sections i < place sections j) ∧
    (∀ i j s t, i < j → sections[i]? = some s → sections[j]? = some t → s.id = t.id →
      place sections i < place sections j) ∧
    (∀ id, (resolve sections).filter (fun s => s.id == id) = sections.filter fun s => s.id == id) ∧
    ((∀ i j, DependsOn sections i j → j < i) → resolve sections = sections) ∧
    ((∀ i, ¬ TransGen (DependsOn sections) i i) → resolve (resolve sections) = resolve sections) :=
  ⟨fun _ => getElem?_resolve_place, fun _ _ less bound => place_lt_of_not_reaches (less.trans bound),
    fun _ _ _ _ => place_lt_of_repeated, filter_resolve sections, resolve_eq_self, resolve_resolve⟩

/-- Only what is needed earlier is moved: `goals` goes ahead of `plan`, and `notes` stays behind it. -/
example : (resolve [
    { id := "facts", outputKey := "", source := .single "" },
    { id := "plan", outputKey := "", source := .single "", dependsOn := ["goals"] },
    { id := "notes", outputKey := "", source := .single "", dependsOn := ["facts"] },
    { id := "goals", outputKey := "", source := .single "" }]).map Section.id =
    ["facts", "goals", "plan", "notes"] := by decide

end Prompt.Order
