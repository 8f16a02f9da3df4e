import Mathlib.Data.List.TFAE
import Mathlib.Tactic.TFAE
import Prompt.Proofs.Run.Finished
import Prompt.Proofs.Transform.Plan

/-!
# First calls

A call is the first one when no history is loaded. The section for first calls then puts out an object, and
otherwise `null`, which hides a fragment of the same name. All who ask for a first call look there
(`isFirstCall_snapshot`), and so the document says it in every place or in none (`firstCall_of_run`).
-/

namespace Prompt.Composer
open Transform

variable {l : Loaded} {c : Context} {r : Composition}

theorem activated_firstCall (finished : Finished ⟨{}, .builtin⟩ l c r) :
    (Section.firstCall.activation c .failClosed).activated =
      !Json.isTruthy? (l.fragment? "recentCalls") := by
  have history : c.history.firstOccurrence = !Json.isTruthy? (l.fragment? "recentCalls") :=
    congrArg History.firstOccurrence finished.data.history
  change (if c.history.firstOccurrence then Activation.mk true .firstOccurrence
    else ⟨false, .notFirstOccurrence⟩).activated = _
  rw [history]
  cases Json.isTruthy? (l.fragment? "recentCalls") <;> rfl

theorem isFirstCall_snapshot (finished : Finished ⟨{}, .builtin⟩ l c r) :
    isFirstCall c.snapshot = !Json.isTruthy? (l.fragment? "recentCalls") := by
  have stored := finished.stored Section.firstCall (by simp [Section.defaults])
  rw [activated_firstCall finished] at stored
  change c.output? "firstCall" = _ at stored
  rw [isFirstCall, Context.field?_snapshot finished.tidy, stored]
  cases Json.isTruthy? (l.fragment? "recentCalls") <;> rfl

/-- A document says in all places or in none that this is the first call, and says so exactly when there is
no history. -/
theorem firstCall_of_run {l : Loaded} (subject : l.subject.isObject = true) :
    ∃ p r, build {} .builtin = .ok p ∧ p.compose l = .ok r ∧ List.TFAE [
      Json.isTruthy? (l.fragment? "recentCalls") = false,
      "first_call" ∈ r.activated,
      r.field? "quickStart" "isFirstCall" = some (.bool true),
      (r.items "sessionPlan" "steps").head? = some (.str "Follow the first-call onboarding steps."),
      .str "This is the caller's first call: open with the onboarding greeting." ∈
        r.items "instructions" "rules"] := by
  obtain ⟨c, r, composed, finished⟩ := exists_finished_defaults subject
  have first : Json.isTruthy? (l.fragment? "recentCalls") = false ↔ isFirstCall c.snapshot = true := by
    rw [isFirstCall_snapshot finished, Bool.not_eq_true']
  have activated : "first_call" ∈ r.activated ↔ isFirstCall c.snapshot = true := by
    rw [isFirstCall_snapshot finished, ← activated_firstCall finished]
    exact finished.activated Section.firstCall (by simp [Section.defaults])
  have flag : r.field? "quickStart" "isFirstCall" = some (.bool (isFirstCall c.snapshot)) :=
    field?_quickStart finished (by decide)
  have plan : r.field? "sessionPlan" "steps" = some (.ofStrings (steps c.snapshot)) :=
    (field?_sessionPlan finished (by decide)).trans (field?_sessionPlan_steps c.snapshot)
  have told : r.field? "instructions" "rules" = some (.ofStrings (rules c.snapshot)) :=
    (field?_instructions finished (by decide)).trans (field?_instructions_rules c.snapshot)
  refine ⟨_, r, build_defaults, composed, ?_⟩
  have step : (r.items "sessionPlan" "steps").head? = some (.str onboardingStep) ↔
      isFirstCall c.snapshot = true := by
    rw [Composition.items_of_field? plan, ← head?_steps]
    cases steps c.snapshot <;> simp
  have rule : .str firstCallRule ∈ r.items "instructions" "rules" ↔ isFirstCall c.snapshot = true := by
    rw [Composition.items_of_field? told, ← mem_rules_firstCall]
    simp
  rw [flag]
  tfae_have 1 ↔ 2 := first.trans activated.symm
  tfae_have 1 ↔ 3 := by rw [first, Option.some.injEq, Json.bool.injEq]
  tfae_have 1 ↔ 4 := first.trans step.symm
  tfae_have 1 ↔ 5 := first.trans rule.symm
  tfae_finish

/-- A caller with a call behind them, for whom a fragment claims the contrary. -/
def returning : Loaded where
  subject := .obj [("name", .str "Ada")]
  fragments := [("firstCall", .bool true), ("recentCalls", .arr [.obj [("summary", .str "Greetings.")]])]

theorem firstCall_of_returning :
    returning.subject.isObject = true ∧
    ∃ p r, build {} .builtin = .ok p ∧ p.compose returning = .ok r ∧
      "first_call" ∉ r.activated ∧ r.field? "quickStart" "isFirstCall" ≠ some (.bool true) := by
  have subject : returning.subject.isObject = true := rfl
  obtain ⟨p, r, built, composed, alike⟩ := firstCall_of_run subject
  have history : Json.isTruthy? (returning.fragment? "recentCalls") = true := rfl
  refine ⟨subject, p, r, built, composed, fun active => ?_, fun flagged => ?_⟩
  · have first := (alike.out 1 0).mp active
    rw [history] at first
    cases first
  · have first := (alike.out 2 0).mp flagged
    rw [history] at first
    cases first

end Prompt.Composer
