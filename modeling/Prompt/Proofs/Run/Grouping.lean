import Prompt.Proofs.Run.Decision

/-!
# Who has a grouping

A subject is assigned a grouping when the field of the relation is true, or the field of its id has a usable
id. An empty text in the field of the relation passes for an id as well (`hasGrouping_iff`). But for a subject
that has nothing else, sections are decided by whether a grouping is assigned (`assigned_of_run`).
-/

namespace Prompt

/-! ### Ids -/

namespace Json

/-- What can be used as an id: a text that is not empty, or a number. -/
def IsId : Json → Prop
  | .str s => s ≠ ""
  | .num _ => True
  | _ => False

def HoldsId (j : Json) (key : String) : Prop := ∃ id, j.field? key = some id ∧ id.IsId

theorem isSome_idText? {j : Json} : (idText? j).isSome = true ↔ j.IsId := by
  cases j with
  | str s => by_cases blank : s = "" <;> simp [idText?, IsId, blank]
  | _ => simp [idText?, IsId]

theorem isSome_bind_idText? {j : Json} {key : String} :
    ((j.field? key).bind idText?).isSome = true ↔ j.HoldsId key := by
  unfold HoldsId
  cases j.field? key <;> simp [isSome_idText?]

theorem isTruthy_of_field? {j value : Json} {key : String} (found : j.field? key = some value) :
    j.isTruthy = true := by
  cases j with
  | obj es =>
      cases es with
      | nil => cases found
      | cons e es => rfl
  | _ => cases found

end Json

/-! ### Groupings -/

/-- The field of the relation is true, or the field of its id has an id that can be used. -/
def Assigned (subject : Json) (relation : String) : Prop :=
  Json.isTruthy? (subject.field? relation) = true ∨ subject.HoldsId (idField relation)

/-- The grouping of the subject has an id: in the field for it, in the grouping, or it is a text itself. -/
def Identified (subject : Json) (scope : String) : Prop :=
  subject.HoldsId (idField scope) ∨
    ∃ g, subject.field? scope = some g ∧ (g.HoldsId "id" ∨ ∃ s, g = .str s)

theorem isSome_groupingId? {subject : Json} {scope : String} :
    (groupingId? subject scope).isSome = true ↔ Identified subject scope := by
  unfold groupingId? Identified
  rw [Option.isSome_or, Option.isSome_or, Bool.or_eq_true, Bool.or_eq_true, Json.isSome_bind_idText?]
  cases subject.field? scope with
  | none => simp
  | some g =>
      simp only [Option.bind_some, Json.isSome_bind_idText?, Option.some.injEq, exists_eq_left']
      cases g <;> simp [Json.asString?]

theorem hasGrouping_iff {subject : Json} {relation : String} :
    hasGrouping subject relation = true ↔
      Assigned subject relation ∨ subject.field? relation = some (.str "") := by
  rw [hasGrouping, Bool.or_eq_true, isSome_groupingId?, Identified, Assigned]
  constructor
  · rintro (truthy | own | ⟨g, found, ⟨id, inside, -⟩ | ⟨s, rfl⟩⟩)
    · exact .inl (.inl truthy)
    · exact .inl (.inr own)
    · rw [found]
      -- A record that has an id is not empty, and so it is true.
      exact .inl (.inl (Json.isTruthy_of_field? inside))
    · rw [found]
      by_cases blank : s = ""
      · exact .inr (by rw [blank])
      · exact .inl (.inl (bne_iff_ne.mpr blank))
  · rintro ((truthy | own) | blank)
    · exact .inl truthy
    · exact .inr (.inl own)
    · exact .inr (.inr ⟨_, blank, .inr ⟨"", rfl⟩⟩)

/-- The entries of a history. Only an array has any. -/
def pastEntries (history : Option Json) : List Json := (history.map Json.items).getD []

theorem isFirstInScope_iff {subject : Json} {history : Option Json} {scope : String} :
    isFirstInScope subject history scope = true ↔ ∃ id, groupingId? subject scope = some id ∧
      ∀ entry ∈ pastEntries history, (entry.field? (idField scope)).bind idText? ≠ some id := by
  unfold isFirstInScope pastEntries
  cases groupingId? subject scope <;> simp

theorem hasGrouping_of_isFirstInScope {subject : Json} {history : Option Json} {scope : String}
    (first : isFirstInScope subject history scope = true) : hasGrouping subject scope = true := by
  obtain ⟨id, grouping, -⟩ := isFirstInScope_iff.mp first
  rw [hasGrouping, grouping, Option.isSome_some, Bool.or_true]

/-! ### Decisions -/

theorem Activation.activated_ite (holds : Bool) (yes no : Reason) :
    (if holds then (⟨true, yes⟩ : Activation) else ⟨false, no⟩).activated = holds := by
  cases holds <;> rfl

namespace Section
variable {s : Section} {relation : String}

theorem activated_of_hasRelation (asks : s.condition = .hasRelation relation) (c : Context)
    (policy : UnknownPolicy) : (s.activation c policy).activated = hasGrouping c.subject relation := by
  unfold activation
  rw [asks]
  exact Activation.activated_ite _ _ _

theorem activated_of_firstInScope (asks : s.condition = .firstInScope relation) (c : Context)
    (policy : UnknownPolicy) : (s.activation c policy).activated = c.history.isFirstIn relation := by
  unfold activation
  rw [asks]
  exact Activation.activated_ite _ _ _

end Section

namespace Composer

/-- Unless the empty text is all that a subject has for its grouping, the sections that ask for the relation
are active exactly when it is assigned, and those that ask for a first occurrence only then. -/
theorem assigned_of_run (p : Composer) {l : Loaded} (subject : l.subject.isObject = true)
    {relation : String} (written : l.subject.field? relation = some (.str "") →
      l.subject.HoldsId (idField relation)) :
    ∃ r, p.compose l = .ok r ∧ (r.visits.map Visit.step).Perm p.config.resolvedSections ∧
      ∀ v ∈ r.visits,
        (v.step.condition = .hasRelation relation →
          (v.outcome.isActive = true ↔ Assigned l.subject relation)) ∧
        (v.step.condition = .firstInScope relation → v.outcome.isActive = true →
          Assigned l.subject relation) := by
  have assigned : hasGrouping l.subject relation = true ↔ Assigned l.subject relation :=
    hasGrouping_iff.trans (or_iff_left_of_imp fun blank => .inr (written blank))
  have listed : ((p.visits (p.start l) p.order).map Visit.step).Perm p.config.resolvedSections := by
    rw [map_step_visits]
    exact Order.resolve_perm p.config.resolvedSections
  refine ⟨_, p.compose_of_isObject subject, listed, fun v visited => ⟨fun asks => ?_, fun asks active => ?_⟩⟩
  · rw [(p.activation_visit visited).1, Section.activated_of_hasRelation asks]
    exact assigned
  · have member : v.step ∈ p.config.resolvedSections := p.step_mem_of_visited visited
    rw [(p.activation_visit visited).1, Section.activated_of_firstInScope asks, start,
      History.isFirstIn_ofLoaded l _ (Section.mem_scopes member asks)] at active
    exact assigned.mp (hasGrouping_of_isFirstInScope active)

def clubFacts : Section where
  id := "club"
  outputKey := "club"
  source := .single "subject.club"
  condition := .hasRelation "club"

def clubWelcome : Section where
  id := "club_welcome"
  outputKey := "clubWelcome"
  source := .single "subject.club"
  condition := .firstInScope "club"

def clubSections : Config := { sections := some [clubFacts, clubWelcome] }

/-- An empty text for the club, and a number for its id. -/
theorem assigned_of_numbered :
    let l : Loaded := { subject := .obj [("club", .str ""), ("clubId", .num (.int 7))] }
    l.subject.isObject = true ∧ l.subject.HoldsId (idField "club") ∧
      ∃ r, compose ⟨clubSections, .builtin⟩ l = .ok r ∧
        ∃ v ∈ r.visits, v.step = clubFacts ∧ v.outcome.isActive = true := by
  intro l
  have subject : l.subject.isObject = true := rfl
  have own : l.subject.HoldsId (idField "club") := ⟨.num (.int 7), rfl, trivial⟩
  have written : l.subject.field? "club" = some (.str "") → l.subject.HoldsId (idField "club") := fun _ => own
  obtain ⟨r, composed, listed, decided⟩ := assigned_of_run ⟨clubSections, .builtin⟩ subject written
  have member : clubFacts ∈ r.visits.map Visit.step := listed.mem_iff.mpr List.mem_cons_self
  obtain ⟨v, visited, step⟩ := List.mem_map.mp member
  refine ⟨subject, own, r, composed, v, visited, step, ?_⟩
  exact ((decided v visited).1 (congrArg Section.condition step)).mpr (.inr own)

/-- An empty text is taken for a grouping, and for one that is new. -/
theorem assigned_of_blank :
    let l : Loaded := { subject := .obj [("club", .str "")] }
    ¬Assigned l.subject "club" ∧
      ∃ r, compose ⟨clubSections, .builtin⟩ l = .ok r ∧
        r.visits.map (fun v => (v.step, v.outcome.isActive)) = [(clubFacts, true), (clubWelcome, true)] := by
  refine ⟨?_, _, compose_of_isObject _ rfl, rfl⟩
  rintro (truthy | ⟨id, found, -⟩)
  · cases truthy
  · cases found

end Composer

end Prompt
