import Prompt.Proofs.Order.Precedence
import Prompt.Proofs.Run.Loop

/-!
# The records of a run

An observer is told nothing about a run that fails. Otherwise it hears the events of each section
between the start and the finish, and the lists of active and skipped sections say the same
(`events_of_run`).
-/

namespace Prompt

namespace Event

def activatedId? : Event → Option String
  | activated id _ _ => some id
  | _ => none

def skippedEntry? : Event → Option (String × Reason)
  | skipped id reason _ => some (id, reason)
  | _ => none

end Event

namespace Composer

variable (p : Composer)

/-- What an observer is told about a section: that it was skipped, or the transforms that it lacks and
then that it was active. -/
def sectionEvents (c : Context) (s : Section) : List Event :=
  let activation := s.activation c p.config.unknownCondition
  if activation.activated then
    (s.transformNames.filter fun n => !Entries.contains p.registry n).map (.missing s.id) ++
      [.activated s.id s.outputKey activation.reason]
  else [.skipped s.id activation.reason !s.fallback.action.omitsKey]

theorem events_visit {c c' : Context} (same : c.SameData c') (s : Section) :
    (p.visit c' s).events = p.sectionEvents c s := by
  unfold visit sectionEvents Visit.events
  rw [same.activation]
  dsimp only
  split
  · next reason result outcome =>
      split at outcome
      · next active =>
          obtain ⟨rfl, rfl⟩ := Outcome.active.inj outcome
          rw [if_pos active, Registry.missing_apply]
      · cases outcome
  · next reason stored outcome =>
      split at outcome
      · cases outcome
      · next inactive =>
          obtain ⟨rfl, rfl⟩ := Outcome.skipped.inj outcome
          rw [if_neg inactive, Fallback.isSome_stored?]

theorem events_visits {c c' : Context} (same : c.SameData c') (sections : List Section) :
    (p.visits c' sections).flatMap Visit.events = sections.flatMap (p.sectionEvents c) := by
  induction sections generalizing c' with
  | nil => rfl
  | cons s rest ih =>
      rw [visits, List.flatMap_cons, List.flatMap_cons, p.events_visit same,
        ih (same.trans (c'.sameData_afterVisit _))]

theorem isActive_of_mem_sectionEvents {c : Context} {s : Section} {id key : String} {reason : Reason}
    (member : .activated id key reason ∈ p.sectionEvents c s) : reason.isActive = true := by
  unfold sectionEvents at member
  dsimp only at member
  split at member
  · next active =>
      rcases List.mem_append.mp member with missing | activated
      · simp at missing
      · obtain ⟨-, -, rfl⟩ := Event.activated.inj (List.mem_singleton.mp activated)
        rw [Section.isActive_activation, active]
  · simp at member

theorem isActive_of_mem_skipped {c : Context} {sections : List Section} {entry : String × Reason}
    (member : entry ∈ (p.visits c sections).filterMap Visit.skipped?) :
    entry.2.isActive = false := by
  obtain ⟨v, visited, skipped⟩ := List.mem_filterMap.mp member
  obtain ⟨active, reason⟩ := p.activation_visit visited
  unfold Visit.skipped? at skipped
  cases outcome : v.outcome with
  | active r result => simp [outcome] at skipped
  | skipped r stored =>
      simp only [outcome, Option.some.injEq] at skipped
      simp only [outcome, Outcome.isActive, Outcome.reason] at active reason
      rw [← skipped, reason, Section.isActive_activation, ← active]

end Composer

namespace Visit

theorem activatedId?_events (v : Visit) :
    v.events.filterMap Event.activatedId? = v.activated?.toList := by
  unfold events activated?
  cases v.outcome with
  | active reason result =>
      simp [List.filterMap_map, Function.comp_def, Event.activatedId?]
  | skipped reason stored => rfl

theorem skippedEntry?_events (v : Visit) :
    v.events.filterMap Event.skippedEntry? = v.skipped?.toList := by
  unfold events skipped?
  cases v.outcome with
  | active reason result =>
      simp [List.filterMap_map, Function.comp_def, Event.skippedEntry?]
  | skipped reason stored => rfl

theorem filterMap_flatMap_events {α : Type} {read : Event → Option α} {direct : Visit → Option α}
    (each : ∀ v : Visit, v.events.filterMap read = (direct v).toList) (vs : List Visit) :
    (vs.flatMap events).filterMap read = vs.filterMap direct := by
  induction vs with
  | nil => rfl
  | cons v vs ih =>
      rw [List.flatMap_cons, List.filterMap_append, each, ih, List.filterMap_cons]
      cases direct v <;> rfl

theorem length_activated_add_length_skipped (vs : List Visit) :
    (vs.filterMap activated?).length + (vs.filterMap skipped?).length = vs.length := by
  induction vs with
  | nil => rfl
  | cons v vs ih =>
      simp only [List.filterMap_cons, List.length_cons, ← ih]
      unfold activated? skipped?
      cases v.outcome with
      | active reason result => simp only [List.length_cons]; omega
      | skipped reason stored => simp only [List.length_cons]; omega

end Visit

namespace Composer

theorem length_order (p : Composer) : p.order.length = p.config.resolvedSections.length :=
  (Order.resolve_perm p.config.resolvedSections).length_eq

theorem length_visits (p : Composer) (c : Context) (sections : List Section) :
    (p.visits c sections).length = sections.length := by
  simpa using congrArg List.length (p.map_step_visits c sections)

theorem filterMap_events_composition (p : Composer) (l : Loaded) (vs : List Visit) {α : Type}
    {read : Event → Option α} {direct : Visit → Option α}
    (each : ∀ v : Visit, v.events.filterMap read = (direct v).toList)
    (start : ∀ n, read (.started n) = none) (finish : ∀ a s, read (.finished a s) = none) :
    (p.composition l vs).events.filterMap read = vs.filterMap direct := by
  unfold composition
  dsimp only
  rw [List.cons_append, List.filterMap_cons_none (start _), List.filterMap_append,
    List.filterMap_cons_none (finish _ _), Visit.filterMap_flatMap_events each, List.filterMap_nil,
    List.append_nil]

/-- A run fails exactly when its subject is no object, and then nothing is told. Otherwise the events
are those of the sections in order, and the lists of the result agree with them. -/
theorem events_of_run {config : Config} {registry : Registry} {p : Composer}
    (built : build config registry = .ok p) (l : Loaded) :
    ((∃ e, p.compose l = .error e) ↔ l.subject.isObject = false) ∧
    (∀ e, p.compose l = .error e → (p.observed l).1 = []) ∧
    ∀ r, p.compose l = .ok r →
      (p.observed l).1 = r.events ∧
      r.events = .started config.resolvedSections.length ::
        (Order.resolve config.resolvedSections).flatMap (p.sectionEvents (p.start l)) ++
        [.finished r.activated.length r.skipped.length] ∧
      r.activated = r.events.filterMap Event.activatedId? ∧
      r.skipped = r.events.filterMap Event.skippedEntry? ∧
      r.activated.length + r.skipped.length = config.resolvedSections.length ∧
      r.sectionCount = config.resolvedSections.length ∧
      (∀ entry ∈ r.skipped, entry.2.isActive = false) ∧
      ∀ id key reason, .activated id key reason ∈ r.events → reason.isActive = true := by
  obtain rfl := build_eq built
  cases subject : l.subject.isObject with
  | false =>
      simp [compose, observed_of_not_isObject _ subject]
  | true =>
      simp only [compose, observed_of_isObject _ subject]
      refine ⟨by simp, by simp, fun r result => ?_⟩
      obtain rfl := Except.ok.inj result
      set p : Composer := ⟨config, registry⟩
      have length := p.length_order
      have events := p.events_visits (.refl (p.start l)) p.order
      have counts := Visit.length_activated_add_length_skipped (p.visits (p.start l) p.order)
      rw [length_visits, length] at counts
      refine ⟨rfl, ?_, ?_, ?_, counts, length, fun entry => p.isActive_of_mem_skipped, ?_⟩
      · simp only [composition, events, length]
        rfl
      · exact (p.filterMap_events_composition l _ Visit.activatedId?_events (fun _ => rfl)
          fun _ _ => rfl).symm
      · exact (p.filterMap_events_composition l _ Visit.skippedEntry?_events (fun _ => rfl)
          fun _ _ => rfl).symm
      · intro id key reason member
        simp only [composition, events, List.cons_append, List.mem_cons, List.mem_append,
          List.mem_flatMap, reduceCtorEq, List.not_mem_nil, or_false, false_or] at member
        obtain ⟨s, -, member⟩ := member
        exact p.isActive_of_mem_sectionEvents member

/-- A section without data, and one that runs before it and asks twice for a transform that does not
exist. -/
def lacking : Config where
  validateOnLoad := false
  sections := some [
    { id := "late", outputKey := "notes", source := .single "notes", condition := .dataExists none
      fallback := .omitted, dependsOn := ["early"] },
    { id := "early", outputKey := "facts", source := .single "caller"
      transform := some (.many ["absent", "absent"]) }]

theorem events_of_lacking :
    build lacking .builtin = .ok ⟨lacking, .builtin⟩ ∧
    ∀ r, compose ⟨lacking, .builtin⟩ ⟨.obj [], [], 0⟩ = .ok r → r.events =
      [.started 2, .missing "early" "absent", .missing "early" "absent",
        .activated "early" "facts" .always, .skipped "late" (.dataMissing ["notes"]) false,
        .finished r.activated.length r.skipped.length] := by
  have built : build lacking .builtin = .ok ⟨lacking, .builtin⟩ := rfl
  refine ⟨built, fun r result => ?_⟩
  obtain ⟨-, events, -⟩ := (events_of_run built ⟨.obj [], [], 0⟩).2.2 r result
  rw [events]
  rfl

end Composer

end Prompt
