import Prompt.Proofs.Order.Precedence
import Prompt.Run.Compose

/-!
# One turn of the loop, and all of them

A turn records one visit (`step_eq`), and the whole loop the visits of the sections in order
(`foldl_step`). A visit changes nothing but outputs, and whether a section is active does not depend on
outputs: every section of a run is decided as it would be before the run (`activation_visit`).
-/

namespace Prompt

def Visit.events (v : Visit) : List Event :=
  match v.outcome with
  | .active reason result =>
      result.missing.map (.missing v.step.id) ++ [.activated v.step.id v.step.outputKey reason]
  | .skipped reason stored => [.skipped v.step.id reason stored.isSome]

def Visit.activated? (v : Visit) : Option String :=
  match v.outcome with
  | .active _ _ => some v.step.id
  | .skipped _ _ => none

def Visit.skipped? (v : Visit) : Option (String × Reason) :=
  match v.outcome with
  | .active _ _ => none
  | .skipped reason _ => some (v.step.id, reason)

namespace Progress

def record (r : Progress) (vs : List Visit) : Progress where
  context := vs.foldl Context.afterVisit r.context
  events := r.events ++ vs.flatMap Visit.events
  activated := r.activated ++ vs.filterMap Visit.activated?
  skipped := r.skipped ++ vs.filterMap Visit.skipped?
  visits := r.visits ++ vs

theorem record_nil (r : Progress) : r.record [] = r := by
  simp [record]

theorem record_cons (r : Progress) (v : Visit) (vs : List Visit) :
    (r.record [v]).record vs = r.record (v :: vs) := by
  simp [record, List.filterMap_cons]
  constructor
  · cases v.activated? <;> simp
  · cases v.skipped? <;> simp

end Progress

namespace Composer

def visits (p : Composer) (c : Context) : List Section → List Visit
  | [] => []
  | s :: rest => p.visit c s :: p.visits (c.afterVisit (p.visit c s)) rest

variable (p : Composer)

theorem map_step_visits (c : Context) (sections : List Section) :
    (p.visits c sections).map Visit.step = sections := by
  induction sections generalizing c with
  | nil => rfl
  | cons s rest ih => exact congrArg (s :: ·) (ih _)

theorem step_eq (r : Progress) (s : Section) : p.step r s = r.record [p.visit r.context s] := by
  have same : (p.visit r.context s).step = s := rfl
  unfold step Progress.record
  cases outcome : (p.visit r.context s).outcome with
  | active reason result =>
      simp [Context.afterVisit, Visit.events, Visit.activated?, Visit.skipped?, Outcome.stored?,
        outcome, same]
  | skipped reason stored =>
      cases stored <;>
        simp [Context.afterVisit, Visit.events, Visit.activated?, Visit.skipped?, Outcome.stored?,
          outcome, same]

theorem foldl_step (sections : List Section) (r : Progress) :
    sections.foldl p.step r = r.record (p.visits r.context sections) := by
  induction sections generalizing r with
  | nil => exact r.record_nil.symm
  | cons s rest ih =>
      rw [List.foldl_cons, step_eq, ih]
      exact Progress.record_cons r (p.visit r.context s) _

end Composer

/-! ### What a visit leaves as it is -/

/-- Two contexts that agree but for the outputs. -/
structure Context.SameData (c c' : Context) : Prop where
  loaded : c'.loaded = c.loaded
  subjectKey : c'.subjectKey = c.subjectKey
  history : c'.history = c.history

namespace Context

theorem SameData.refl (c : Context) : c.SameData c := ⟨rfl, rfl, rfl⟩

theorem SameData.trans {c c' c'' : Context} (h : c.SameData c') (h' : c'.SameData c'') :
    c.SameData c'' :=
  ⟨h'.loaded.trans h.loaded, h'.subjectKey.trans h.subjectKey, h'.history.trans h.history⟩

theorem sameData_afterVisit (c : Context) (v : Visit) : c.SameData (c.afterVisit v) := by
  unfold afterVisit
  cases v.outcome.stored? with
  | none => exact SameData.refl c
  | some value => exact ⟨rfl, rfl, rfl⟩

variable {c c' : Context}

theorem SameData.subject (h : c.SameData c') : c'.subject = c.subject :=
  congrArg Loaded.subject h.loaded

theorem SameData.source? (h : c.SameData c') (name : String) : c'.source? name = c.source? name := by
  simp only [Context.source?, h.subject, h.loaded, h.subjectKey]

theorem SameData.hasData (h : c.SameData c') (name : String) : c'.hasData name = c.hasData name := by
  simp only [Context.hasData, derivedGrouping?, h.subject, h.source?]

theorem SameData.activation (h : c.SameData c') (s : Section) (policy : UnknownPolicy) :
    s.activation c' policy = s.activation c policy := by
  have present : c'.hasData = c.hasData := funext h.hasData
  unfold Section.activation
  cases s.condition <;> simp only [present, h.source?, h.subject, h.history]

end Context

namespace Composer

variable (p : Composer)

theorem exists_visit {c : Context} {sections : List Section} {v : Visit}
    (member : v ∈ p.visits c sections) : ∃ c', c.SameData c' ∧ v = p.visit c' v.step := by
  induction sections generalizing c with
  | nil => simp [visits] at member
  | cons s rest ih =>
      rcases List.mem_cons.mp member with rfl | member
      · exact ⟨c, .refl c, rfl⟩
      · obtain ⟨c', same, visited⟩ := ih member
        exact ⟨c', (c.sameData_afterVisit _).trans same, visited⟩

theorem outcome_visit (c : Context) (s : Section) :
    (p.visit c s).outcome.isActive = (s.activation c p.config.unknownCondition).activated ∧
      (p.visit c s).outcome.reason = (s.activation c p.config.unknownCondition).reason := by
  unfold visit
  dsimp only
  split <;> simp_all [Outcome.isActive, Outcome.reason]

theorem activation_visit {c : Context} {sections : List Section} {v : Visit}
    (member : v ∈ p.visits c sections) :
    v.outcome.isActive = (v.step.activation c p.config.unknownCondition).activated ∧
      v.outcome.reason = (v.step.activation c p.config.unknownCondition).reason := by
  obtain ⟨c', same, visited⟩ := p.exists_visit member
  rw [← same.activation, visited]
  exact p.outcome_visit c' v.step

/-- An active section stores something, and a skipped one does unless its fallback leaves the key
out. -/
theorem isSome_stored?_visit (c : Context) (s : Section) :
    (p.visit c s).outcome.stored?.isSome =
      ((s.activation c p.config.unknownCondition).activated || !s.fallback.action.omitsKey) := by
  unfold visit
  dsimp only
  split
  · next active => simp [Outcome.stored?, active]
  · next inactive => simp [Outcome.stored?, inactive, Fallback.isSome_stored?]

/-! ### The whole run -/

theorem build_eq {config : Config} {registry : Registry} {p : Composer}
    (built : build config registry = .ok p) : p = ⟨config, registry⟩ := by
  unfold build at built
  dsimp only at built
  split at built
  · cases built
  · exact (Except.ok.inj built).symm

theorem build_of_isValid {config : Config} {registry : Registry}
    (valid : (Section.check config.resolvedSections registry).isValid = true) :
    build config registry = .ok ⟨config, registry⟩ := by
  simp [build, valid]

def composition (l : Loaded) (vs : List Visit) : Composition where
  document := assemble p.order (vs.foldl Context.afterVisit (p.start l)).outputs p.config.privateStart
  events := .started p.order.length :: vs.flatMap Visit.events ++
    [.finished (vs.filterMap Visit.activated?).length (vs.filterMap Visit.skipped?).length]
  activated := vs.filterMap Visit.activated?
  skipped := vs.filterMap Visit.skipped?
  sectionCount := p.order.length
  memoryCount := l.recordCount p.config.memorySource
  loadTimeMs := l.loadTimeMs
  visits := vs

theorem observed_of_isObject {l : Loaded} (subject : l.subject.isObject = true) :
    p.observed l = ((p.composition l (p.visits (p.start l) p.order)).events,
      .ok (p.composition l (p.visits (p.start l) p.order))) := by
  unfold observed
  simp [subject, foldl_step, Progress.record, composition]

theorem compose_of_isObject {l : Loaded} (subject : l.subject.isObject = true) :
    p.compose l = .ok (p.composition l (p.visits (p.start l) p.order)) := by
  rw [compose, p.observed_of_isObject subject]

theorem step_mem_of_visited {c : Context} {v : Visit} (visited : v ∈ p.visits c p.order) :
    v.step ∈ p.config.resolvedSections := by
  apply (Order.resolve_perm p.config.resolvedSections).mem_iff.mp
  change v.step ∈ p.order
  rw [← p.map_step_visits c p.order]
  exact List.mem_map_of_mem visited

theorem observed_of_not_isObject {l : Loaded} (subject : l.subject.isObject = false) :
    p.observed l = ([], .error (.missingSubject p.config.subjectKey)) := by
  unfold observed
  simp [subject]

end Composer

end Prompt
