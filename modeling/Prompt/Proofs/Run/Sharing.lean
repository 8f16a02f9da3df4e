import Prompt.Proofs.Run.Document
import Prompt.Proofs.Section.Valid

/-!
# Sections that share a key

The checks let sections share an output key. When only one of them is active in a run, its value is
stored, and then the fallback of each one that comes later. The document shows the last of these
(`document_of_sole_active`), so the value of the active section shows only where no such fallback takes
its place.
-/

namespace Prompt

theorem lastStored?_append (vs ws : List Visit) (key : String) :
    lastStored? (vs ++ ws) key = (lastStored? ws key).or (lastStored? vs key) := by
  simp only [lastStored?, List.filter_append, List.filterMap_append, List.getLast?_append]

theorem lastStored?_cons_of_active {v : Visit} {reason : Reason} {result : ChainResult}
    (active : v.outcome = .active reason result) (vs : List Visit) :
    lastStored? (v :: vs) v.step.outputKey =
      some ((lastStored? vs v.step.outputKey).getD result.value) := by
  have single : lastStored? [v] v.step.outputKey = some result.value := by
    simp [lastStored?, active, Outcome.stored?]
  change lastStored? ([v] ++ vs) v.step.outputKey = _
  rw [lastStored?_append, single]
  cases lastStored? vs v.step.outputKey <;> rfl

/-- The last value that the fallbacks under a key store. -/
def lastFallback? (sections : List Section) (key : String) : Option Json :=
  ((sections.filter fun s => s.outputKey == key).filterMap fun s => s.fallback.stored?).getLast?

namespace Composer

theorem stored?_of_inactive (p : Composer) {c : Context} {sections : List Section} {v : Visit}
    (visited : v ∈ p.visits c sections) (inactive : v.outcome.isActive = false) :
    v.outcome.stored? = v.step.fallback.stored? := by
  obtain ⟨c', -, same⟩ := p.exists_visit visited
  rw [same] at inactive ⊢
  unfold visit at inactive ⊢
  dsimp only at inactive ⊢
  split at inactive
  · cases inactive
  · next skipped => rw [if_neg skipped]; rfl

theorem lastStored?_of_inactive {vs : List Visit} {key : String}
    (falls : ∀ v ∈ vs, v.step.outputKey = key → v.outcome.stored? = v.step.fallback.stored?) :
    lastStored? vs key = lastFallback? (vs.map Visit.step) key := by
  unfold lastStored? lastFallback?
  rw [List.filter_map, List.filterMap_map]
  congr 1
  apply List.filterMap_congr
  intro v member
  obtain ⟨member, same⟩ := List.mem_filter.mp member
  exact falls v member (beq_iff_eq.mp same)

/-- What a document shows under a key of which only one section is active: the last fallback that a
later section of the key stores, or else what the active section makes of its input. -/
theorem document_of_sole_active {config : Config} {registry : Registry}
    (accepted : (Section.check config.resolvedSections registry).isValid = true) {l : Loaded}
    (subject : l.subject.isObject = true) :
    ∃ p r, build config registry = .ok p ∧ p.compose l = .ok r ∧
      r.visits.map Visit.step = Order.resolve config.resolvedSections ∧
      ∀ before v after reason result, r.visits = before ++ v :: after →
        v.outcome = .active reason result →
        (∀ w ∈ before ++ after, w.step.outputKey = v.step.outputKey → w.outcome.isActive = false) →
        r.document.get? v.step.outputKey = some (withoutPrivate config.privateStart
          ((lastFallback? (after.map Visit.step) v.step.outputKey).getD result.value)) ∧
        (r.document.get? v.step.outputKey = some (withoutPrivate config.privateStart result.value) ↔
          ∀ j, lastFallback? (after.map Visit.step) v.step.outputKey = some j →
            withoutPrivate config.privateStart j = withoutPrivate config.privateStart result.value) := by
  set p : Composer := ⟨config, registry⟩
  refine ⟨p, _, build_of_isValid accepted, p.compose_of_isObject subject, p.map_step_visits _ _, ?_⟩
  intro before v after reason result visits active sole
  change p.visits (p.start l) p.order = _ at visits
  have visited {w : Visit} (member : w ∈ before ++ v :: after) : w ∈ p.visits (p.start l) p.order :=
    visits ▸ member
  have ordinary : isReserved v.step.outputKey = false := by
    obtain ⟨version, summary⟩ := ((Section.isValid_check _ _).mp accepted).unreserved v.step
      (p.step_mem_of_visited (visited (by simp)))
    simp [isReserved, version, summary]
  have falls : lastStored? after v.step.outputKey =
      lastFallback? (after.map Visit.step) v.step.outputKey := by
    apply lastStored?_of_inactive
    intro w member same
    exact p.stored?_of_inactive (visited (by simp [member])) (sole w (by simp [member]) same)
  have shown : (p.composition l (p.visits (p.start l) p.order)).document.get? v.step.outputKey =
      some (withoutPrivate config.privateStart
        ((lastFallback? (after.map Visit.step) v.step.outputKey).getD result.value)) := by
    rw [p.get?_document l ordinary, visits, lastStored?_append, lastStored?_cons_of_active active, falls]
    rfl
  refine ⟨shown, ?_⟩
  rw [shown, Option.some_inj]
  cases lastFallback? (after.map Visit.step) v.step.outputKey <;> simp

/-- Two sections under one key. The one that runs last has no data. -/
def sharedBy (fallback : Fallback) : Config where
  sections := some [
    { id := "facts", outputKey := "facts", source := .single "caller" },
    { id := "notes", outputKey := "facts", source := .single "notes", condition := .dataExists none
      fallback }]

def ada : Loaded := { subject := .obj [("name", .str "Ada")] }

def factsVisit : Visit where
  step := { id := "facts", outputKey := "facts", source := .single "caller" }
  outcome := .active .always ⟨ada.subject, []⟩

def notesVisit (fallback : Fallback) : Visit where
  step :=
    { id := "notes", outputKey := "facts", source := .single "notes", condition := .dataExists none
      fallback }
  outcome := .skipped (.dataMissing ["notes"]) fallback.stored?

theorem visits_of_sharedBy (fallback : Fallback) :
    visits ⟨sharedBy fallback, .builtin⟩ (start ⟨sharedBy fallback, .builtin⟩ ada)
        (order ⟨sharedBy fallback, .builtin⟩) = [factsVisit, notesVisit fallback] := by
  rfl

theorem document_of_sharedBy_omitted :
    (Section.check (sharedBy .omitted).resolvedSections .builtin).isValid = true ∧
    ada.subject.isObject = true ∧
    ∃ p r, build (sharedBy .omitted) .builtin = .ok p ∧ p.compose ada = .ok r ∧
      r.document.get? "facts" = some ada.subject := by
  have accepted : (Section.check (sharedBy .omitted).resolvedSections .builtin).isValid = true := by
    decide
  have subject : ada.subject.isObject = true := rfl
  obtain ⟨p, r, built, composed, -, shows⟩ := document_of_sole_active accepted subject
  refine ⟨accepted, subject, p, r, built, composed, ?_⟩
  obtain rfl := build_eq built
  rw [compose_of_isObject _ subject, Except.ok.injEq] at composed
  subst composed
  have inactive : ∀ w ∈ [notesVisit .omitted], w.step.outputKey = factsVisit.step.outputKey →
      w.outcome.isActive = false := by simp [notesVisit, Outcome.isActive]
  exact (shows [] factsVisit [notesVisit .omitted] _ _ (visits_of_sharedBy _) rfl inactive).1

/-- The fallback of the section without data takes the place of what the active one stored. -/
theorem document_of_sharedBy_null :
    (Section.check (sharedBy .nothing).resolvedSections .builtin).isValid = true ∧
    ∃ r result, compose ⟨sharedBy .nothing, .builtin⟩ ada = .ok r ∧
      r.visits = [factsVisit, notesVisit .nothing] ∧
      factsVisit.outcome = .active .always result ∧
      (notesVisit .nothing).outcome.isActive = false ∧
      r.document.get? "facts" = some .null ∧
      r.document.get? "facts" ≠
        some (withoutPrivate (sharedBy .nothing).privateStart result.value) := by
  have shown : Entries.get? (composition ⟨sharedBy .nothing, .builtin⟩ ada
      [factsVisit, notesVisit .nothing]).document "facts" = some .null := rfl
  refine ⟨by decide, _, ⟨ada.subject, []⟩, compose_of_isObject _ rfl, rfl, rfl, rfl, ?_⟩
  rw [visits_of_sharedBy, shown]
  exact ⟨rfl, by simp [ada, withoutPrivate, sharedBy]⟩

end Composer

end Prompt
