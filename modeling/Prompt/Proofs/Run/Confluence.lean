import Prompt.Proofs.Order.Rearranged
import Prompt.Proofs.Run.Document
import Prompt.Proofs.Transform.Reads

/-!
# Runs in another order

Outputs solve a list of sections when each section, looking at these outputs, stores what stands under
its key. This does not depend on the order of the list. A run whose sections come behind all that they
read solves its list (`solves_finish`), and comes out at any solution that there is
(`visits_of_solves`). So two such runs of the same sections end alike. Dependencies put a section behind
all that it reads when it needs the writers, directly or through others (`ordered_resolve`).
-/

namespace Prompt
open Relation

/-! ### Order -/

/-- Each key is written once, and read only behind the section that writes it. -/
def Section.Ordered (reads : Section → List String) : List Section → Prop
  | [] => True
  | s :: rest =>
    s.outputKey ∉ rest.map Section.outputKey ∧
      (∀ key ∈ reads s, key ∉ (s :: rest).map Section.outputKey) ∧ Ordered reads rest

/-- Whatever a section reads is written by sections that it needs. -/
def Section.Covered (reads : Section → List String) (sections : List Section) : Prop :=
  ∀ s ∈ sections, ∀ t ∈ sections, t.outputKey ∈ reads s → TransGen (Section.Needs sections) s t

theorem Section.Covered.of_perm {reads : Section → List String} {sections sections' : List Section}
    (covered : Section.Covered reads sections) (permuted : sections'.Perm sections) :
    Section.Covered reads sections' := by
  intro s listed t listed' read
  have needs := covered s (permuted.mem_iff.mp listed) t (permuted.mem_iff.mp listed') read
  refine TransGen.mono ?_ s t needs
  exact fun _ _ direct => ⟨permuted.mem_iff.mpr direct.1, direct.2⟩

theorem Section.ordered_resolve {reads : Section → List String} {sections : List Section}
    (valid : Section.Valid sections) (distinct : (sections.map Section.outputKey).Nodup)
    (covered : Section.Covered reads sections) : Section.Ordered reads (Order.resolve sections) := by
  have permuted := Order.resolve_perm sections
  have behind (after : List Section) : ∀ before, Order.resolve sections = before ++ after →
      Section.Ordered reads after := by
    induction after with
    | nil => exact fun _ _ => trivial
    | cons s rest ih =>
        intro before split
        have nodup : (before ++ s :: rest).Nodup :=
          split ▸ permuted.nodup_iff.mpr valid.ids_nodup.of_map
        have keys : ((before ++ s :: rest).map Section.outputKey).Nodup :=
          split ▸ (permuted.map _).nodup_iff.mpr distinct
        have listed {t : Section} (member : t ∈ s :: rest) : t ∈ sections := by
          rw [← permuted.mem_iff, split]
          exact List.mem_append_right _ member
        rw [List.map_append] at keys
        refine ⟨(List.nodup_cons.mp keys.of_append_right).1, fun key read later => ?_,
          ih (before ++ [s]) (by simp [split])⟩
        obtain ⟨t, member, rfl⟩ := List.mem_map.mp later
        have earlier := Order.mem_before_of_needs valid split
          (covered s (listed List.mem_cons_self) t (listed member) read)
        exact List.disjoint_of_nodup_append nodup earlier member
  exact behind _ [] rfl

/-! ### Solutions -/

namespace Context
variable (c : Context)

theorem output?_visited (p : Composer) (s : Section) (key : String) :
    (c.afterVisit (p.visit c s)).output? key =
      if s.outputKey = key then (p.visit c s).outcome.stored?.or (c.output? key) else c.output? key := by
  unfold afterVisit
  cases (p.visit c s).outcome.stored? with
  | none => simp
  | some value => exact Entries.get?_insert c.outputs s.outputKey key value

theorem afterVisit_with_outputs (v : Visit) (outputs : Entries Json) :
    { c.afterVisit v with outputs } = { c with outputs } := by
  unfold afterVisit
  cases v.outcome.stored? <;> rfl

/-- Nothing stands yet under the keys of the sections. -/
structure Ready (sections : List Section) : Prop where
  tidy : c.outputs.keys.Nodup
  fresh : ∀ key ∈ sections.map Section.outputKey, c.output? key = none

variable {c}

theorem Ready.visited {s : Section} {rest : List Section} (ready : c.Ready (s :: rest))
    (last : s.outputKey ∉ rest.map Section.outputKey) (p : Composer) :
    (c.afterVisit (p.visit c s)).Ready rest where
  tidy := by
    unfold Context.afterVisit
    cases (p.visit c s).outcome.stored? with
    | none => exact ready.tidy
    | some value => exact Entries.nodup_keys_insert ready.tidy _ _
  fresh := by
    intro key later
    have other : s.outputKey ≠ key := fun same => last (same ▸ later)
    rw [output?_visited, if_neg other]
    exact ready.fresh key (List.mem_cons_of_mem _ later)

end Context

namespace Composer
variable (p : Composer)

def finish (c : Context) (sections : List Section) : Context :=
  (p.visits c sections).foldl Context.afterVisit c

structure Solves (c : Context) (sections : List Section) (outputs : Entries Json) : Prop where
  tidy : outputs.keys.Nodup
  written : ∀ s ∈ sections,
    outputs.get? s.outputKey = (p.visit { c with outputs } s).outcome.stored?
  unwritten : ∀ key, key ∉ sections.map Section.outputKey → outputs.get? key = c.output? key

variable {p} {reads : Section → List String} {c c' : Context} {sections : List Section}
  {outputs : Entries Json}

theorem visit_congr {s : Section} (bounded : s.Reads p.registry (reads s))
    (agree : c.AgreeOn (reads s) c') : p.visit c' s = p.visit c s := by
  unfold visit
  rw [agree.activation, bounded c c' agree]

/-- A section sees the final outputs already when nothing that it reads is still to be written. -/
theorem visit_with_outputs {s : Section} (bounded : s.Reads p.registry (reads s))
    (tidy : c.outputs.keys.Nodup) (tidy' : outputs.keys.Nodup)
    (final : ∀ key ∈ reads s, outputs.get? key = c.output? key) :
    p.visit { c with outputs } s = p.visit c s :=
  visit_congr bounded ⟨⟨rfl, rfl, rfl, fun _ => rfl⟩, ⟨tidy, tidy'⟩, final⟩

/-- Once the value of the first section is stored, a solution is one for the sections behind it. -/
theorem Solves.visited {s : Section} {rest : List Section} (solves : p.Solves c (s :: rest) outputs)
    (ready : c.Ready (s :: rest)) (seen : p.visit { c with outputs } s = p.visit c s) :
    p.Solves (c.afterVisit (p.visit c s)) rest outputs := by
  refine ⟨solves.tidy, fun t member => ?_, fun key absent => ?_⟩
  · rw [Context.afterVisit_with_outputs]
    exact solves.written t (List.mem_cons_of_mem _ member)
  · rw [Context.output?_visited]
    split
    · next own =>
        obtain rfl : s.outputKey = key := own
        rw [solves.written s List.mem_cons_self, seen, ready.fresh _ List.mem_cons_self, Option.or_none]
    · next other =>
        apply solves.unwritten
        rw [List.map_cons, List.mem_cons, not_or]
        exact ⟨Ne.symm other, absent⟩

section Ordered
variable (ready : c.Ready sections) (bounded : ∀ s ∈ sections, s.Reads p.registry (reads s))
  (ordered : Section.Ordered reads sections)
include ready bounded ordered

theorem solves_finish : p.Solves c sections (p.finish c sections).outputs := by
  induction sections generalizing c with
  | nil => exact ⟨ready.tidy, fun _ member => (by cases member), fun _ _ => rfl⟩
  | cons s rest ih =>
      obtain ⟨last, unread, ordered⟩ := ordered
      obtain ⟨boundedHere, boundedRest⟩ := List.forall_mem_cons.mp bounded
      have solves := ih (ready.visited last p) boundedRest ordered
      change p.Solves _ rest (p.finish c (s :: rest)).outputs at solves
      have unwritten : ∀ key, key ∉ (s :: rest).map Section.outputKey →
          (p.finish c (s :: rest)).outputs.get? key = c.output? key := by
        intro key absent
        rw [List.map_cons, List.mem_cons, not_or] at absent
        rw [solves.unwritten key absent.2, Context.output?_visited, if_neg (Ne.symm absent.1)]
      refine ⟨solves.tidy, fun t member => ?_, unwritten⟩
      rcases List.mem_cons.mp member with rfl | member
      · -- What the first section reads is not written any more, so it has seen it as it is at the end.
        have seen := visit_with_outputs boundedHere ready.tidy solves.tidy
          fun key read => unwritten key (unread key read)
        rw [seen, solves.unwritten _ last, Context.output?_visited, if_pos rfl,
          ready.fresh _ List.mem_cons_self, Option.or_none]
      · rw [solves.written t member, Context.afterVisit_with_outputs]

theorem visits_of_solves (solves : p.Solves c sections outputs) :
    p.visits c sections = sections.map (p.visit { c with outputs }) ∧
      ∀ key, (p.finish c sections).outputs.get? key = outputs.get? key := by
  induction sections generalizing c with
  | nil => exact ⟨rfl, fun key => (solves.unwritten key List.not_mem_nil).symm⟩
  | cons s rest ih =>
      obtain ⟨last, unread, ordered⟩ := ordered
      obtain ⟨boundedHere, boundedRest⟩ := List.forall_mem_cons.mp bounded
      have seen := visit_with_outputs boundedHere ready.tidy solves.tidy
        fun key read => solves.unwritten key (unread key read)
      obtain ⟨visits, final⟩ := ih (ready.visited last p) boundedRest ordered (solves.visited ready seen)
      rw [Context.afterVisit_with_outputs] at visits
      refine ⟨?_, final⟩
      rw [Composer.visits, visits, List.map_cons, seen]

end Ordered

/-! ### Two runs -/

theorem visit_of_alike {s : Section} (bounded : s.Reads p.registry (reads s)) (alike : c.Alike c')
    (tidy : outputs.keys.Nodup) : p.visit { c' with outputs } s = p.visit { c with outputs } s :=
  visit_congr bounded
    ⟨⟨alike.loaded, alike.subjectKey, alike.firstOccurrence, alike.isFirstIn⟩, ⟨tidy, tidy⟩,
      fun _ _ => rfl⟩

theorem Solves.rearranged {p' : Composer} {sections' : List Section}
    (solves : p.Solves c sections outputs) (permuted : sections'.Perm sections)
    (bounded : ∀ s ∈ sections, s.Reads p.registry (reads s)) (visit : p'.visit = p.visit)
    (alike : c.Alike c') (started : c'.outputs = c.outputs) : p'.Solves c' sections' outputs := by
  refine ⟨solves.tidy, fun s member => ?_, fun key absent => ?_⟩
  · have listed := permuted.mem_iff.mp member
    rw [visit, visit_of_alike (bounded s listed) alike solves.tidy]
    exact solves.written s listed
  · rw [(permuted.map Section.outputKey).mem_iff] at absent
    rw [solves.unwritten key absent, Context.output?, Context.output?, started]

theorem alike_start (config : Config) (registry : Registry) (l : Loaded) {sections : List Section}
    (permuted : sections.Perm config.resolvedSections) :
    (start ⟨config, registry⟩ l).Alike
      (start ⟨{ config with sections := some sections }, registry⟩ l) := by
  refine ⟨rfl, rfl, rfl, fun scope => ?_⟩
  have scopes : (Section.scopes sections).Perm (Section.scopes config.resolvedSections) :=
    permuted.filterMap _
  rw [Bool.eq_iff_iff, History.isFirstIn, History.isFirstIn, List.contains_iff_mem,
    List.contains_iff_mem]
  exact (scopes.filter _).mem_iff

theorem summaryLine_congr {outputs outputs' : Entries Json}
    (same : ∀ key, outputs'.get? key = outputs.get? key) :
    summaryLine outputs' = summaryLine outputs := by
  simp only [summaryLine, outputName?, same]

theorem get?_document_congr {p p' : Composer} {l : Loaded}
    (start : p'.config.privateStart = p.config.privateStart)
    (same : ∀ key, (p'.finish (p'.start l) p'.order).outputs.get? key =
      (p.finish (p.start l) p.order).outputs.get? key) (key : String) :
    (p'.composition l (p'.visits (p'.start l) p'.order)).document.get? key =
      (p.composition l (p.visits (p.start l) p.order)).document.get? key := by
  cases reserved : isReserved key with
  | false =>
      have last := same key
      unfold finish at last
      rw [get?_outputs_start, get?_outputs_start] at last
      rw [get?_document _ _ reserved, get?_document _ _ reserved, last, start]
  | true =>
      rcases Bool.or_eq_true_iff.mp reserved with version | summary
      · rw [beq_iff_eq.mp version]
        exact (get?_assemble_version _ _ _).trans (get?_assemble_version _ _ _).symm
      · rw [beq_iff_eq.mp summary]
        refine (get?_assemble_summary _ _ _).trans (Eq.trans ?_ (get?_assemble_summary _ _ _).symm)
        exact congrArg (some ∘ Json.str) (summaryLine_congr same)

/-- The order of a list does not matter to a run when each key is written by one section, and each
section needs, directly or through others, the sections that write what it reads. -/
theorem compose_rearranged {config : Config} {registry : Registry} {sections : List Section}
    (permuted : sections.Perm config.resolvedSections) (valid : Section.Valid config.resolvedSections)
    (distinct : (config.resolvedSections.map Section.outputKey).Nodup)
    (bounded : ∀ s ∈ config.resolvedSections, s.Reads registry (reads s))
    (covered : Section.Covered reads config.resolvedSections) {l : Loaded}
    (subject : l.subject.isObject = true) :
    ∃ p p' r r', build config registry = .ok p ∧
      build { config with sections := some sections } registry = .ok p' ∧
      p.compose l = .ok r ∧ p'.compose l = .ok r' ∧
      (∀ key, r'.document.get? key = r.document.get? key) ∧ r'.visits.Perm r.visits ∧
      r'.activated.Perm r.activated ∧ r'.skipped.Perm r.skipped := by
  set p : Composer := ⟨config, registry⟩
  set p' : Composer := ⟨{ config with sections := some sections }, registry⟩
  have valid' := valid.of_perm permuted
  have built := build_of_isValid ((Section.isValid_check _ registry).mpr valid)
  have built' : build p'.config registry = .ok p' :=
    build_of_isValid ((Section.isValid_check _ registry).mpr valid')
  have order : p.order.Perm config.resolvedSections := Order.resolve_perm _
  have order' : p'.order.Perm config.resolvedSections := (Order.resolve_perm _).trans permuted
  have bounds : ∀ s ∈ p.order, s.Reads p.registry (reads s) := fun s member =>
    bounded s (order.mem_iff.mp member)
  have bounds' : ∀ s ∈ p'.order, s.Reads p'.registry (reads s) := fun s member =>
    bounded s (order'.mem_iff.mp member)
  have ready (q : Composer) : (q.start l).Ready q.order := ⟨List.nodup_nil, fun _ _ => rfl⟩
  have ordered : Section.Ordered reads p.order := Section.ordered_resolve valid distinct covered
  have ordered' : Section.Ordered reads p'.order :=
    Section.ordered_resolve valid' ((permuted.map _).nodup_iff.mpr distinct) (covered.of_perm permuted)
  have alike : (p.start l).Alike (p'.start l) := alike_start config registry l permuted
  -- What the one run puts out is a solution for the other one as well.
  have solves := solves_finish (ready p) bounds ordered
  have solves' : p'.Solves (p'.start l) p'.order _ :=
    solves.rearranged (order'.trans order.symm) bounds rfl alike rfl
  obtain ⟨visits, -⟩ := visits_of_solves (ready p) bounds ordered solves
  obtain ⟨visits', final⟩ := visits_of_solves (ready p') bounds' ordered' solves'
  have visited : (p'.visits (p'.start l) p'.order).Perm (p.visits (p.start l) p.order) := by
    rw [visits, visits', List.map_congr_left fun s member =>
      visit_of_alike (bounds' s member) alike solves.tidy]
    exact (order'.trans order.symm).map _
  exact ⟨p, p', _, _, built, built', p.compose_of_isObject subject, p'.compose_of_isObject subject,
    get?_document_congr rfl final, visited, visited.filterMap _, visited.filterMap _⟩

end Composer

end Prompt
