import Prompt.Proofs.Run.Confluence

/-!
# The default sections

The default sections read much of what others put out, three of them through the whole context. Every
section that they read from goes before them by their dependencies (`covered_defaults`), so that the
order in which the defaults are listed does not matter.
-/

namespace Prompt
open Relation

namespace Section

theorem valid_defaults : Valid defaults := by
  apply (isValid_check defaults []).mp
  decide +kernel

theorem distinct_defaults : (defaults.map outputKey).Nodup := by decide

theorem traceable_defaults : ∀ s ∈ defaults, s.isTraceable = true := by decide

/-- Whatever a default section reads comes from its dependencies or from theirs. -/
theorem covered_defaults : Covered reads defaults := by
  have near : ∀ s ∈ defaults, ∀ t ∈ defaults, t.outputKey ∈ s.reads → t.id ∈ s.dependsOn ∨
      ∃ u ∈ defaults, u.id ∈ s.dependsOn ∧ t.id ∈ u.dependsOn := by
    decide
  intro s listed t listed' read
  rcases near s listed t listed' read with direct | ⟨u, listed'', first, second⟩
  · exact .single ⟨listed', direct⟩
  · exact .tail (.single ⟨listed'', first⟩) ⟨listed', second⟩

end Section

namespace Composer

/-- However the default sections are listed, a run decides alike and puts out the same document. -/
theorem compose_defaults {sections : List Section} (permuted : sections.Perm Section.defaults)
    {l : Loaded} (subject : l.subject.isObject = true) :
    ∃ p p' r r', build {} .builtin = .ok p ∧ build { sections := some sections } .builtin = .ok p' ∧
      p.compose l = .ok r ∧ p'.compose l = .ok r' ∧
      (∀ key, r'.document.get? key = r.document.get? key) ∧
      r'.activated.Perm r.activated ∧ r'.skipped.Perm r.skipped := by
  obtain ⟨p, p', r, r', built, built', composed, composed', document, -, activated, skipped⟩ :=
    @compose_rearranged Section.reads {} .builtin sections permuted Section.valid_defaults
      Section.distinct_defaults
      (fun s listed => Section.reads_of_isTraceable (Section.traceable_defaults s listed))
      Section.covered_defaults l subject
  exact ⟨p, p', r, r', built, built', composed, composed', document, activated, skipped⟩

theorem compose_reversed_defaults :
    let l : Loaded := { subject := .obj [("name", .str "Ada"), ("domain", .str "Spanish")] }
    Section.defaults.reverse.Perm Section.defaults ∧ l.subject.isObject = true ∧
    ∃ p p' r r', build {} .builtin = .ok p ∧
      build { sections := some Section.defaults.reverse } .builtin = .ok p' ∧
      p.compose l = .ok r ∧ p'.compose l = .ok r' ∧
      r'.document.get? "quickStart" = r.document.get? "quickStart" := by
  intro l
  have permuted := List.reverse_perm Section.defaults
  have subject : l.subject.isObject = true := rfl
  obtain ⟨p, p', r, r', built, built', composed, composed', document, -⟩ :=
    compose_defaults permuted subject
  exact ⟨permuted, subject, p, p', r, r', built, built', composed, composed', document "quickStart"⟩

end Composer

end Prompt
