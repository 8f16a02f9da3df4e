import Prompt.Proofs.Run.Events

/-!
# Runs without the transforms that do not exist

A name that is not registered passes the value on, so that a section stores the same when its chain does
without it (`visit_registeredOnly`). All that a list loses with such names are the events that tell of them:
the run visits the same sections in the same order, and comes out at the same document
(`composition_registeredOnly`).
-/

namespace Prompt

/-! ### Chains without some of their names -/

def Chain.filter (keep : String → Bool) : Chain → Chain
  | one name => if keep name then one name else many []
  | many names => many (names.filter keep)

theorem Chain.names_filter (keep : String → Bool) (chain : Chain) :
    (chain.filter keep).names = chain.names.filter keep := by
  cases chain with
  | one name => cases kept : keep name <;> simp [Chain.filter, Chain.names, kept]
  | many names => rfl

namespace Section
variable (registry : Registry) (s : Section)

/-- The names in the chain of a section that are not registered, as often as they stand there. -/
def unregistered : List String := s.transformNames.filter fun n => !Entries.contains registry n

def registeredOnly : Section :=
  { s with transform := s.transform.map (Chain.filter (Entries.contains registry)) }

theorem transformNames_registeredOnly :
    (s.registeredOnly registry).transformNames = s.transformNames.filter (Entries.contains registry) := by
  unfold transformNames registeredOnly
  cases s.transform with
  | none => rfl
  | some chain => exact chain.names_filter _

theorem scopes_map {f : Section → Section} (same : ∀ s, (f s).condition = s.condition)
    (sections : List Section) : scopes (sections.map f) = scopes sections := by
  unfold scopes
  rw [List.filterMap_map]
  exact List.filterMap_congr fun s _ => by simp only [Function.comp_apply, same]

end Section

theorem Registry.apply_registered (registry : Registry) (c : Context) (names : List String)
    (input : Json) : registry.apply c (names.filter (Entries.contains registry)) input =
      ⟨(registry.apply c names input).value, []⟩ := by
  have values : (names.filter (Entries.contains registry)).filterMap (Entries.get? registry) =
      names.filterMap (Entries.get? registry) := by
    rw [List.filterMap_filter]
    refine List.filterMap_congr fun n _ => ?_
    cases found : Entries.get? registry n <;> simp [Entries.contains, found]
  have value := registry.value_apply c (names.filter (Entries.contains registry)) input
  have missing := registry.missing_apply c (names.filter (Entries.contains registry)) input
  rw [values, ← registry.value_apply c names input] at value
  rw [List.filter_filter] at missing
  cases result : registry.apply c (names.filter (Entries.contains registry)) input
  simp_all

/-! ### The order of a run -/

namespace Order
variable {f : Section → Section} (ids : ∀ s, (f s).id = s.id)
  (needs : ∀ s, (f s).dependsOn = s.dependsOn)
include ids

theorem first?_map (sections : List Section) (id : String) :
    first? (sections.map f) id = first? sections id := by
  unfold first?
  rw [List.findIdx?_map]
  congr 1
  funext s
  simp only [Function.comp_apply, ids]

include needs

theorem dependencies_map (sections : List Section) (i : Nat) :
    dependencies (sections.map f) i = dependencies sections i := by
  have named : first? (sections.map f) = first? sections := funext (first?_map ids sections)
  unfold dependencies
  rw [List.getElem?_map, named]
  cases sections[i]? with
  | none => rfl
  | some s => simp only [Option.map_some, needs]

theorem resolve_map (sections : List Section) :
    resolve (sections.map f) = (resolve sections).map f := by
  have walk : ∀ fuel w i, visit (sections.map f) fuel w i = visit sections fuel w i := by
    intro fuel
    induction fuel with
    | zero => exact fun w i => rfl
    | succ fuel ih =>
        intro w i
        have inner : visit (sections.map f) fuel = visit sections fuel :=
          funext fun w => funext (ih w)
        simp only [visit, dependencies_map ids needs, inner]
  have same : positions (sections.map f) = positions sections := by
    unfold positions
    rw [List.length_map, funext fun w => funext (walk sections.length w)]
  unfold resolve
  rw [same, List.map_filterMap]
  exact List.filterMap_congr fun i _ => List.getElem?_map

end Order

/-! ### Visits -/

def Event.missing? : Event → Option (String × String)
  | missing id transform => some (id, transform)
  | _ => none

def Outcome.withoutMissing : Outcome → Outcome
  | active reason result => active reason ⟨result.value, []⟩
  | skipped reason stored => skipped reason stored

/-- The visit of the section whose chain has lost the names that are not registered. -/
def Visit.registeredOnly (registry : Registry) (v : Visit) : Visit :=
  ⟨v.step.registeredOnly registry, v.outcome.withoutMissing⟩

namespace Visit
variable (registry : Registry) (v : Visit)

theorem afterVisit_registeredOnly (c : Context) :
    c.afterVisit (v.registeredOnly registry) = c.afterVisit v := by
  unfold Context.afterVisit registeredOnly
  cases v.outcome <;> rfl

theorem activated?_registeredOnly : (v.registeredOnly registry).activated? = v.activated? := by
  unfold activated? registeredOnly
  cases v.outcome <;> rfl

theorem skipped?_registeredOnly : (v.registeredOnly registry).skipped? = v.skipped? := by
  unfold skipped? registeredOnly
  cases v.outcome <;> rfl

theorem events_registeredOnly : (v.registeredOnly registry).events =
    v.events.filter fun e => e.missing?.isNone := by
  unfold events registeredOnly
  cases v.outcome with
  | active reason result =>
      simp [Outcome.withoutMissing, Section.registeredOnly, Event.missing?, List.filter_map,
        Function.comp_def]
  | skipped reason stored => rfl

end Visit

/-- The composer of the same sections, whose chains have lost the names that are not registered. -/
def Composer.registeredOnly (p : Composer) : Composer where
  config :=
    { p.config with
      sections := some (p.config.resolvedSections.map (Section.registeredOnly p.registry)) }
  registry := p.registry

namespace Composer
variable (p : Composer)

theorem visit_registeredOnly (c : Context) (s : Section) :
    p.registeredOnly.visit c (s.registeredOnly p.registry) =
      (p.visit c s).registeredOnly p.registry := by
  have decided : (s.registeredOnly p.registry).activation c p.registeredOnly.config.unknownCondition =
      s.activation c p.config.unknownCondition := rfl
  have registry : p.registeredOnly.registry = p.registry := rfl
  unfold visit
  rw [decided, registry, Section.transformNames_registeredOnly, Registry.apply_registered]
  generalize s.activation c p.config.unknownCondition = decision
  cases decision with
  | mk activated reason => cases activated <;> rfl

theorem visits_registeredOnly (c : Context) (sections : List Section) :
    p.registeredOnly.visits c (sections.map (Section.registeredOnly p.registry)) =
      (p.visits c sections).map (Visit.registeredOnly p.registry) := by
  induction sections generalizing c with
  | nil => rfl
  | cons s rest ih =>
      rw [List.map_cons, visits, visits, List.map_cons, visit_registeredOnly,
        Visit.afterVisit_registeredOnly, ih]

theorem missing_of_visited {c : Context} {sections : List Section} {v : Visit}
    (visited : v ∈ p.visits c sections) : v.events.filterMap Event.missing? =
      if v.outcome.isActive then (v.step.unregistered p.registry).map fun n => (v.step.id, n)
      else [] := by
  obtain ⟨c', -, seen⟩ := p.exists_visit visited
  have events := p.events_visit (.refl c') v.step
  have active := (p.outcome_visit c' v.step).1
  rw [← seen] at events active
  rw [events, active, sectionEvents]
  split
  · simp [List.filterMap_map, Function.comp_def, Event.missing?, Section.unregistered]
  · rfl

/-! ### Two runs -/

theorem assemble_registeredOnly (registry : Registry) (sections : List Section) (outputs : Entries Json)
    (start : String) : assemble (sections.map (Section.registeredOnly registry)) outputs start =
      assemble sections outputs start := by
  unfold assemble
  rw [List.foldl_map]
  rfl

theorem order_registeredOnly :
    p.registeredOnly.order = p.order.map (Section.registeredOnly p.registry) :=
  Order.resolve_map (f := Section.registeredOnly p.registry) (fun _ => rfl) (fun _ => rfl) _

theorem start_registeredOnly (l : Loaded) : p.registeredOnly.start l = p.start l := by
  have scopes : Section.scopes p.registeredOnly.config.resolvedSections =
      Section.scopes p.config.resolvedSections :=
    Section.scopes_map (f := Section.registeredOnly p.registry) (fun _ => rfl) _
  unfold start
  rw [scopes]
  rfl

theorem composition_registeredOnly (l : Loaded) (vs : List Visit) :
    p.registeredOnly.composition l (vs.map (Visit.registeredOnly p.registry)) =
      { p.composition l vs with
        events := (p.composition l vs).events.filter fun e => e.missing?.isNone
        visits := vs.map (Visit.registeredOnly p.registry) } := by
  have outputs : (vs.map (Visit.registeredOnly p.registry)).foldl Context.afterVisit (p.start l) =
      vs.foldl Context.afterVisit (p.start l) := by
    simp only [List.foldl_map, Visit.afterVisit_registeredOnly]
  have activated : (vs.map (Visit.registeredOnly p.registry)).filterMap Visit.activated? =
      vs.filterMap Visit.activated? := by
    simp only [List.filterMap_map, Function.comp_def, Visit.activated?_registeredOnly]
  have skipped : (vs.map (Visit.registeredOnly p.registry)).filterMap Visit.skipped? =
      vs.filterMap Visit.skipped? := by
    simp only [List.filterMap_map, Function.comp_def, Visit.skipped?_registeredOnly]
  have events : (vs.map (Visit.registeredOnly p.registry)).flatMap Visit.events =
      (vs.flatMap Visit.events).filter fun e => e.missing?.isNone := by
    simp only [List.flatMap_map, Visit.events_registeredOnly, List.filter_flatMap]
  unfold composition
  rw [order_registeredOnly, start_registeredOnly, outputs, activated, skipped, events,
    assemble_registeredOnly, List.length_map]
  simp [registeredOnly, Event.missing?]

theorem compose_registeredOnly (l : Loaded) :
    p.registeredOnly.compose l = (p.compose l).map fun r =>
      { r with
        events := r.events.filter fun e => e.missing?.isNone
        visits := r.visits.map (Visit.registeredOnly p.registry) } := by
  cases subject : l.subject.isObject with
  | false => simp [compose, observed_of_not_isObject _ subject, registeredOnly, Except.map]
  | true =>
      rw [compose_of_isObject _ subject, compose_of_isObject _ subject, order_registeredOnly,
        start_registeredOnly, visits_registeredOnly, composition_registeredOnly]
      rfl

theorem isObject_iff_composed (l : Loaded) :
    l.subject.isObject = true ↔ ∃ r, p.compose l = .ok r := by
  cases subject : l.subject.isObject with
  | false => simp [compose, p.observed_of_not_isObject subject]
  | true => simp [p.compose_of_isObject subject]

theorem eq_of_composed {l : Loaded} {r : Composition} (composed : p.compose l = .ok r) :
    r = p.composition l (p.visits (p.start l) p.order) := by
  have subject := (p.isObject_iff_composed l).mpr ⟨r, composed⟩
  rw [p.compose_of_isObject subject] at composed
  exact (Except.ok.inj composed).symm

theorem missing_of_visits (c : Context) (sections : List Section) :
    ((p.visits c sections).flatMap Visit.events).filterMap Event.missing? =
      ((p.visits c sections).filter fun v => v.outcome.isActive).flatMap fun v =>
        (v.step.unregistered p.registry).map fun n => (v.step.id, n) := by
  have each : ∀ v ∈ p.visits c sections, v.events.filterMap Event.missing? =
      if v.outcome.isActive then (v.step.unregistered p.registry).map fun n => (v.step.id, n)
      else [] := fun v => p.missing_of_visited
  generalize p.visits c sections = vs at each ⊢
  induction vs with
  | nil => rfl
  | cons v vs ih =>
      obtain ⟨here, behind⟩ := List.forall_mem_cons.mp each
      rw [List.flatMap_cons, List.filterMap_append, here, ih behind, List.filter_cons]
      split <;> rfl

theorem activated_of_visits (vs : List Visit) : vs.filterMap Visit.activated? =
    (vs.filter fun v => v.outcome.isActive).map fun v => v.step.id := by
  induction vs with
  | nil => rfl
  | cons v vs ih =>
      rw [List.filterMap_cons, List.filter_cons, ih]
      unfold Visit.activated?
      cases v.outcome <;> rfl

theorem missing_of_composed {l : Loaded} {r : Composition} (composed : p.compose l = .ok r) :
    r.events.filterMap Event.missing? =
      (r.visits.filter fun v => v.outcome.isActive).flatMap fun v =>
        (v.step.unregistered p.registry).map fun n => (v.step.id, n) := by
  rw [p.eq_of_composed composed]
  refine Eq.trans ?_ (p.missing_of_visits (p.start l) p.order)
  simp [composition, List.filterMap_cons, Event.missing?]

/-- Without the names that are not registered a list of sections comes out at the same document, with the
same sections active and skipped. The events lose what they told of such names: all of those in the chains
of the active sections, in the order of the run. -/
theorem document_of_registeredOnly (config : Config) (sections : List Section) (registry : Registry)
    (l : Loaded) :
    ∃ p p', build { config with validateOnLoad := false, sections := some sections } registry = .ok p ∧
      build { config with
        validateOnLoad := false
        sections := some (sections.map (Section.registeredOnly registry)) } registry = .ok p' ∧
      (l.subject.isObject = true ↔ ∃ r, p.compose l = .ok r) ∧
      (∀ e, p.compose l = .error e → p'.compose l = .error e) ∧
      ∀ r, p.compose l = .ok r → ∃ r', p'.compose l = .ok r' ∧
        r'.document = r.document ∧ r'.activated = r.activated ∧ r'.skipped = r.skipped ∧
        r.visits.map Visit.step = Order.resolve sections ∧
        r.activated = ((r.visits.filter fun v => v.outcome.isActive).map fun v => v.step.id) ∧
        r.events.filterMap Event.missing? =
          ((r.visits.filter fun v => v.outcome.isActive).flatMap fun v =>
            (v.step.unregistered registry).map fun n => (v.step.id, n)) ∧
        r'.events = r.events.filter (fun e => e.missing?.isNone) ∧
        r'.events.filterMap Event.missing? = [] := by
  set p : Composer :=
    ⟨{ config with validateOnLoad := false, sections := some sections }, registry⟩
  refine ⟨p, p.registeredOnly, rfl, rfl, p.isObject_iff_composed l, fun e failed => ?_,
    fun r composed => ?_⟩
  · rw [compose_registeredOnly, failed]
    rfl
  · have reduced := p.compose_registeredOnly l
    rw [composed] at reduced
    refine ⟨_, reduced, rfl, rfl, rfl, ?_, ?_, p.missing_of_composed composed, rfl, ?_⟩
    · rw [p.eq_of_composed composed]
      exact p.map_step_visits _ _
    · rw [p.eq_of_composed composed]
      exact activated_of_visits _
    · rw [List.filterMap_filter, List.filterMap_eq_nil_iff]
      intro e _
      cases e.missing? <;> rfl

end Composer

end Prompt
