import Prompt.Proofs.Run.Defaults

/-!
# The end of a run of the default sections

Of what a default section reads, it sees what stands there at the end of the run. So each output is what its
section makes of the final context, or its fallback (`exists_finished`): several sections that ask for the
same thing get the same answer, in whatever order they run.
-/

namespace Prompt

/-- What a section makes of a context when it is active. -/
def Section.made (s : Section) (c : Context) : Json :=
  s.builtins.foldl (fun j b => b.run c j) (c.resolveInput s.source)

/-- A field of the value under a key of the document. -/
def Composition.field? (r : Composition) (key name : String) : Option Json :=
  (r.document.get? key).bind fun j => j.field? name

def Composition.items (r : Composition) (key name : String) : List Json :=
  ((r.field? key name).map Json.items).getD []

theorem Composition.items_of_field? {r : Composition} {key name : String} {xs : List String}
    (field : r.field? key name = some (.ofStrings xs)) : r.items key name = xs.map .str := by
  rw [items, field]
  rfl

namespace Composer

theorem stored?_visit {p : Composer} (registry : p.registry = .builtin) (c : Context) (s : Section) :
    (p.visit c s).outcome.stored? =
      if (s.activation c p.config.unknownCondition).activated then some (s.made c)
      else s.fallback.stored? := by
  unfold visit
  dsimp only
  split
  · rw [Outcome.stored?, registry, Registry.value_apply_builtin]
    rfl
  · rfl

theorem id_mem_activated {p : Composer} {c : Context} {sections : List Section}
    (distinct : (sections.map Section.id).Nodup) {s : Section} (listed : s ∈ sections) :
    s.id ∈ (p.visits c sections).filterMap Visit.activated? ↔
      (s.activation c p.config.unknownCondition).activated = true := by
  have stepped := p.map_step_visits c sections
  constructor
  · intro member
    obtain ⟨v, visited, active⟩ := List.mem_filterMap.mp member
    have own : v.step ∈ sections := stepped ▸ List.mem_map_of_mem visited
    unfold Visit.activated? at active
    cases outcome : v.outcome with
    | skipped reason stored => simp [outcome] at active
    | active reason result =>
        simp only [outcome, Option.some.injEq] at active
        have same : v.step = s := List.inj_on_of_nodup_map distinct own listed active
        rw [← same, ← (p.activation_visit visited).1, outcome]
        rfl
  · intro active
    rw [← stepped] at listed
    obtain ⟨v, visited, rfl⟩ := List.mem_map.mp listed
    rw [← (p.activation_visit visited).1] at active
    refine List.mem_filterMap.mpr ⟨v, visited, ?_⟩
    unfold Visit.activated?
    cases outcome : v.outcome with
    | active reason result => rfl
    | skipped reason stored =>
        rw [outcome] at active
        cases active

/-- The context in which a run ends, and its result. -/
structure Finished (p : Composer) (l : Loaded) (c : Context) (r : Composition) : Prop where
  data : (p.start l).SameData c
  tidy : c.outputs.keys.Nodup
  stored : ∀ s ∈ p.config.resolvedSections, c.output? s.outputKey =
    if (s.activation c p.config.unknownCondition).activated then some (s.made c)
    else s.fallback.stored?
  shown : ∀ s ∈ p.config.resolvedSections,
    r.document.get? s.outputKey = (c.output? s.outputKey).map (withoutPrivate p.config.privateStart)
  activated : ∀ s ∈ p.config.resolvedSections,
    s.id ∈ r.activated ↔ (s.activation c p.config.unknownCondition).activated = true
  memoryCount : r.memoryCount = l.recordCount p.config.memorySource

theorem exists_finished {config : Config} (valid : Section.Valid config.resolvedSections)
    (distinct : (config.resolvedSections.map Section.outputKey).Nodup)
    (traceable : ∀ s ∈ config.resolvedSections, s.isTraceable = true)
    (covered : Section.Covered Section.reads config.resolvedSections) {l : Loaded}
    (subject : l.subject.isObject = true) :
    ∃ c r, compose ⟨config, .builtin⟩ l = .ok r ∧ Finished ⟨config, .builtin⟩ l c r := by
  set p : Composer := ⟨config, .builtin⟩
  have order : p.order.Perm config.resolvedSections := Order.resolve_perm _
  have bounds : ∀ s ∈ p.order, s.Reads p.registry s.reads := fun s member =>
    Section.reads_of_isTraceable (traceable s (order.mem_iff.mp member))
  have ordered : Section.Ordered Section.reads p.order :=
    Section.ordered_resolve valid distinct covered
  have solves := solves_finish (p := p) (c := p.start l) ⟨List.nodup_nil, fun _ _ => rfl⟩ bounds ordered
  refine ⟨{ p.start l with outputs := (p.finish (p.start l) p.order).outputs }, _,
    p.compose_of_isObject subject, ⟨rfl, rfl, rfl⟩, solves.tidy, ?_, ?_, ?_, rfl⟩
  · intro s listed
    exact (solves.written s (order.mem_iff.mpr listed)).trans (stored?_visit rfl _ s)
  · intro s listed
    obtain ⟨version, summary⟩ := valid.unreserved s listed
    rw [p.get?_document l (by simp [isReserved, version, summary]), ← p.get?_outputs_start l]
    rfl
  · intro s listed
    exact id_mem_activated ((order.map _).nodup_iff.mpr valid.ids_nodup) (order.mem_iff.mpr listed)

/-! ### Fields of the document -/

theorem field?_withoutPrivate {start name : String}
    (shown : start.toList.isPrefixOf name.toList = false) (j : Json) :
    (withoutPrivate start j).field? name = j.field? name := by
  cases j with
  | obj es =>
      rw [withoutPrivate]
      split
      · rfl
      · exact Entries.get?_filter (fun value => by simp [shown]) es
  | _ => rfl

namespace Finished
variable {p : Composer} {l : Loaded} {c : Context} {r : Composition} (finished : Finished p l c r)
  {s : Section} (listed : s ∈ p.config.resolvedSections)
include finished listed

theorem field? {name : String} (shown : p.config.privateStart.toList.isPrefixOf name.toList = false) :
    r.field? s.outputKey name = (c.output? s.outputKey).bind fun j => j.field? name := by
  rw [Composition.field?, finished.shown s listed]
  cases c.output? s.outputKey with
  | none => rfl
  | some j => exact field?_withoutPrivate shown j

theorem output?_of_always (always : s.condition = .always) :
    c.output? s.outputKey = some (s.made c) := by
  rw [finished.stored s listed]
  unfold Section.activation
  rw [always]
  rfl

theorem output?_of_dataExists (condition : s.condition = .dataExists none) :
    c.output? s.outputKey =
      if s.source.names.any c.hasData then some (s.made c) else s.fallback.stored? := by
  rw [finished.stored s listed]
  unfold Section.activation
  rw [condition]
  cases found : s.source.names.filter c.hasData with
  | nil => simp_all
  | cons name rest =>
      have data : name ∈ s.source.names.filter c.hasData := by simp [found]
      obtain ⟨named, present⟩ := List.mem_filter.mp data
      have any : s.source.names.any c.hasData = true := List.any_eq_true.mpr ⟨name, named, present⟩
      simp [found, any]

theorem items_of_output {name : String} {j : Json} (output : c.output? s.outputKey = some j)
    (shown : p.config.privateStart.toList.isPrefixOf name.toList = false) :
    r.items s.outputKey name = ((j.field? name).map Json.items).getD [] := by
  rw [Composition.items, finished.field? listed shown, output]
  rfl

/-- A section that is always active and turns the whole context into its output. -/
theorem field?_of_whole (always : s.condition = .always) (whole : s.source.isWhole = true)
    {b : Transform.Builtin} (chain : s.builtins = [b]) {name : String}
    (shown : p.config.privateStart.toList.isPrefixOf name.toList = false) :
    r.field? s.outputKey name = (b.run c c.snapshot).field? name := by
  have input : c.resolveInput s.source = c.snapshot := by
    simp only [Context.resolveInput, whole, if_true]
  rw [finished.field? listed shown, finished.output?_of_always listed always, Section.made, chain, input]
  rfl

omit listed in
/-- A name that means neither the subject nor a part of it. -/
theorem source?_of_fragment {name : String} (other : name ≠ p.config.subjectKey)
    (plain : Context.subjectPath? name = none) :
    c.source? name = (l.fragment? name).filter fun v => !v.isNull := by
  have start : (p.start l).source? name = (l.fragment? name).filter fun v => !v.isNull := by
    have apart : name ≠ (p.start l).subjectKey := other
    rw [Context.source?, if_neg apart, plain]
    rfl
  rw [← start]
  exact finished.data.source? name

end Finished

/-! ### The default sections -/

@[simp] theorem mem_resolvedSections {s : Section} :
    s ∈ Config.resolvedSections {} ↔ s ∈ Section.defaults :=
  .rfl

theorem build_defaults : build {} .builtin = .ok ⟨{}, .builtin⟩ :=
  build_of_isValid ((Section.isValid_check _ _).mpr Section.valid_defaults)

theorem exists_finished_defaults {l : Loaded} (subject : l.subject.isObject = true) :
    ∃ c r, compose ⟨{}, .builtin⟩ l = .ok r ∧ Finished ⟨{}, .builtin⟩ l c r :=
  @exists_finished {} Section.valid_defaults Section.distinct_defaults
    Section.traceable_defaults Section.covered_defaults l subject

section Defaults
variable {l : Loaded} {c : Context} {r : Composition} (finished : Finished ⟨{}, .builtin⟩ l c r)
  {name : String} (shown : "_".toList.isPrefixOf name.toList = false)
include finished shown

theorem field?_sessionPlan :
    r.field? "sessionPlan" name = (Transform.sessionPlan c.snapshot).field? name :=
  finished.field?_of_whole (s := Section.sessionPlan) (by simp [Section.defaults])
    rfl (by decide) (b := .sessionPlan) (by decide) shown

theorem field?_instructions :
    r.field? "instructions" name = (Transform.instructions c.snapshot).field? name :=
  finished.field?_of_whole (s := Section.instructions) (by simp [Section.defaults])
    rfl (by decide) (b := .instructions) (by decide) shown

theorem field?_quickStart :
    r.field? "quickStart" name = (Transform.quickStart c.snapshot).field? name :=
  finished.field?_of_whole (s := Section.quickStart) (by simp [Section.defaults])
    rfl (by decide) (b := .quickStart) (by decide) shown

end Defaults

end Composer

end Prompt
