import Prompt.Proofs.Run.Loop

/-!
# Decisions do not depend on company

A section asks about its own scope only, and the answer is there for every scope that some section of
the list asks about (`isFirstIn_ofLoaded`). So each section is decided as if it were alone in the list
(`decision_visit`), whatever stands beside it and whatever the transforms are. Only sections with an
unknown condition look at the policy for them (`decisionAlone_eq_iff`).
-/

namespace Prompt

/-! ### The scope of a section -/

theorem Section.mem_scopes {sections : List Section} {s : Section} {scope : String}
    (listed : s ∈ sections) (asks : s.condition = .firstInScope scope) :
    scope ∈ Section.scopes sections :=
  List.mem_filterMap.mpr ⟨s, listed, by rw [asks]⟩

theorem History.isFirstIn_ofLoaded (l : Loaded) (source : String) {scopes : List String}
    {scope : String} (asked : scope ∈ scopes) : (ofLoaded l source scopes).isFirstIn scope =
      isFirstInScope l.subject (l.fragment? source) scope := by
  rw [Bool.eq_iff_iff, isFirstIn, List.contains_iff_mem, ofLoaded, List.mem_filter]
  exact and_iff_right asked

/-! ### A section alone -/

/-- The decision about a section in a run that holds no other. -/
def Section.decisionAlone (s : Section) (config : Config) (l : Loaded) : Activation :=
  s.activation
    { loaded := l
      subjectKey := config.subjectKey
      history := .ofLoaded l config.historySource (Section.scopes [s]) }
    config.unknownCondition

theorem Composer.activation_start (p : Composer) (l : Loaded) {s : Section}
    (listed : s ∈ p.config.resolvedSections) :
    s.activation (p.start l) p.config.unknownCondition = s.decisionAlone p.config l := by
  unfold Section.decisionAlone Section.activation start
  cases asks : s.condition with
  | firstInScope scope =>
      dsimp only
      rw [History.isFirstIn_ofLoaded l _ (Section.mem_scopes listed asks),
        History.isFirstIn_ofLoaded l _ (Section.mem_scopes List.mem_cons_self asks)]
  | _ => rfl

def Visit.decision (v : Visit) : Activation := ⟨v.outcome.isActive, v.outcome.reason⟩

theorem Composer.decision_visit (p : Composer) (l : Loaded) {v : Visit}
    (visited : v ∈ p.visits (p.start l) p.order) : v.decision = v.step.decisionAlone p.config l := by
  obtain ⟨active, reason⟩ := p.activation_visit visited
  rw [Visit.decision, active, reason]
  exact p.activation_start l (p.step_mem_of_visited visited)

/-! ### The policy for unknown conditions -/

namespace Section
variable {s : Section} {config config' : Config}

theorem activated_of_unknown {tag : String} (unknown : s.condition = .custom tag) (config : Config)
    (l : Loaded) :
    (s.decisionAlone config l).activated = decide (config.unknownCondition = .failOpen) := by
  unfold decisionAlone activation
  rw [unknown]

theorem decisionAlone_of_known (key : config'.subjectKey = config.subjectKey)
    (history : config'.historySource = config.historySource) (known : ∀ tag, s.condition ≠ .custom tag)
    (l : Loaded) : s.decisionAlone config' l = s.decisionAlone config l := by
  unfold decisionAlone activation
  rw [key, history]
  cases condition : s.condition with
  | custom tag => exact absurd condition (known tag)
  | _ => rfl

theorem decisionAlone_eq_iff (key : config'.subjectKey = config.subjectKey)
    (history : config'.historySource = config.historySource) (s : Section) (l : Loaded) :
    s.decisionAlone config' l = s.decisionAlone config l ↔
      config'.unknownCondition = config.unknownCondition ∨ ∀ tag, s.condition ≠ .custom tag := by
  constructor
  · intro same
    by_cases known : ∀ tag, s.condition ≠ .custom tag
    · exact .inr known
    · obtain ⟨tag, unknown⟩ := not_forall_not.mp known
      have flags := congrArg Activation.activated same
      rw [activated_of_unknown unknown, activated_of_unknown unknown, decide_eq_decide] at flags
      left
      cases theirs : config'.unknownCondition <;> cases ours : config.unknownCondition <;>
        simp_all
  · rintro (policy | known)
    · unfold decisionAlone
      rw [key, history, policy]
    · exact decisionAlone_of_known key history known l

end Section

/-! ### Two runs -/

namespace Composer

/-- Of two runs over the same data, with any two lists and any two sets of transforms, each decides a
section as the other does. Under different policies they disagree on the sections with an unknown
condition, and on no others. -/
theorem decisions_of_runs {config config' : Config} {registry registry' : Registry} {p p' : Composer}
    (built : build config registry = .ok p) (built' : build config' registry' = .ok p')
    (key : config'.subjectKey = config.subjectKey)
    (history : config'.historySource = config.historySource) {l : Loaded}
    (subject : l.subject.isObject = true) :
    ∃ r r', p.compose l = .ok r ∧ p'.compose l = .ok r' ∧
      (r.visits.map Visit.step).Perm config.resolvedSections ∧
      (r'.visits.map Visit.step).Perm config'.resolvedSections ∧
      r.activated = r.visits.filterMap Visit.activated? ∧
      r.skipped = r.visits.filterMap Visit.skipped? ∧
      (∀ s ∈ config.resolvedSections, ∀ scope, s.condition = .firstInScope scope →
        (p.start l).history.isFirstIn scope =
          isFirstInScope l.subject (l.fragment? config.historySource) scope) ∧
      ∀ v ∈ r.visits, ∀ v' ∈ r'.visits, v'.step = v.step →
        (v'.decision = v.decision ↔ config'.unknownCondition = config.unknownCondition ∨
          ∀ tag, v.step.condition ≠ .custom tag) := by
  obtain rfl := build_eq built
  obtain rfl := build_eq built'
  have listed (p : Composer) :
      ((p.visits (p.start l) p.order).map Visit.step).Perm p.config.resolvedSections := by
    rw [map_step_visits]
    exact Order.resolve_perm p.config.resolvedSections
  refine ⟨_, _, compose_of_isObject _ subject, compose_of_isObject _ subject, listed _, listed _, rfl,
    rfl, ?_, ?_⟩
  · intro s member scope asks
    exact History.isFirstIn_ofLoaded l _ (Section.mem_scopes member asks)
  · intro v visited v' visited' same
    rw [decision_visit _ l visited, decision_visit _ l visited', same]
    exact Section.decisionAlone_eq_iff key history v.step l

def greeting : Section :=
  { id := "greeting", outputKey := "greeting", source := .single "caller"
    condition := .firstInScope "club" }

theorem decisions_of_greeting :
    let alone : Config := { validateOnLoad := false, sections := some [greeting] }
    let beside : Config :=
      { alone with
        unknownCondition := .failOpen
        sections := some [{ greeting with id := "other", condition := .custom "full moon" }, greeting] }
    let l : Loaded := { subject := .obj [("clubId", .str "chess")] }
    build alone .builtin = .ok ⟨alone, .builtin⟩ ∧ build beside [] = .ok ⟨beside, []⟩ ∧
      l.subject.isObject = true ∧
      ∃ r r', compose ⟨alone, .builtin⟩ l = .ok r ∧ compose ⟨beside, []⟩ l = .ok r' ∧
        ∀ v ∈ r.visits, ∀ v' ∈ r'.visits, v'.step = v.step → v'.decision = v.decision := by
  intro alone beside l
  have built : build alone .builtin = .ok ⟨alone, .builtin⟩ := rfl
  have built' : build beside [] = .ok ⟨beside, []⟩ := rfl
  have subject : l.subject.isObject = true := rfl
  obtain ⟨r, r', result, result', listed, -, -, -, -, alike⟩ :=
    decisions_of_runs built built' rfl rfl subject
  refine ⟨built, built', subject, r, r', result, result', fun v visited v' visited' same => ?_⟩
  apply (alike v visited v' visited' same).mpr
  have only : v.step = greeting :=
    List.mem_singleton.mp (listed.mem_iff.mp (List.mem_map_of_mem visited))
  right
  intro tag
  rw [only]
  exact Condition.noConfusion

end Composer

end Prompt
