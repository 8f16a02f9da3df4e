import Prompt.Proofs.Run.Finished
import Prompt.Proofs.Transform.Target
import Prompt.Proofs.Transform.Voice

/-!
# Guidance for the voice

Guidance looks at two outputs. What it takes from them stands in the document too: the records of the
targets and those of the traits, whose numbers are also kept in a private field (`attributes_of_outputs`).
So the document itself says what its guidance has to be (`voiceGuidance_of_run`).
-/

namespace Prompt
open Transform Template

/-- The targets that a document shows, as attributes. -/
def Composition.targets (r : Composition) : List Attribute :=
  (r.items "behaviorTargets" "targets").filterMap (scored? "parameterId" "value")

def Composition.traits (r : Composition) : List Attribute :=
  (r.items "personality" "traits").filterMap (scored? "id" "score")

/-- The attributes that guidance speaks of. -/
def Composition.spoken (r : Composition) : List Attribute := withNew r.targets r.traits

/-- Every fragment is a value that can be held. -/
def Loaded.Sound (l : Loaded) : Prop := ∀ name j, l.fragment? name = some j → j.Sound

namespace Composer

variable {l : Loaded} {c : Context} {r : Composition}

theorem sound_inputValue (finished : Finished ⟨{}, .builtin⟩ l c r) (sound : l.Sound) {name : String}
    (other : name ≠ "caller") (plain : Context.subjectPath? name = none) :
    (c.inputValue name).Sound := by
  have derived : c.derivedGrouping? name = none := by rw [Context.derivedGrouping?, plain]
  rw [Context.inputValue, finished.source?_of_fragment other plain, derived, Option.or_none]
  cases fragment : (l.fragment? name).filter fun v => !v.isNull with
  | none => exact .null
  | some j => exact sound name j (Option.mem_filter_iff.mp (Option.mem_def.mpr fragment)).1

theorem exists_output?_targets (finished : Finished ⟨{}, .builtin⟩ l c r) :
    ∃ t targets, c.output? "behaviorTargets" = some t ∧
      listField t "targets" = targets.map Target.toJson ∧ Settled targets ∧
      (l.Sound → ∀ t ∈ targets, t.value.isFinite = true) := by
  have stored :=
    finished.output?_of_dataExists (s := Section.behaviorTargets) (by simp [Section.defaults]) rfl
  have made : Section.behaviorTargets.made c =
      mergeTargets (.obj [("behaviorTargets", c.inputValue "behaviorTargets"),
        ("callerTargets", c.inputValue "callerTargets")]) := by
    have chain : Section.behaviorTargets.builtins = [.mergeTargets] := by decide
    rw [Section.made, chain]
    rfl
  rw [made] at stored
  split at stored
  · refine ⟨_, _, stored, listField_mergeTargets _, settled_merged _, fun sound => isFinite_merged ?_⟩
    have first := sound_inputValue finished sound (by decide : "behaviorTargets" ≠ "caller") rfl
    have second := sound_inputValue finished sound (by decide : "callerTargets" ≠ "caller") rfl
    exact List.forall_mem_cons.mpr
      ⟨sound_items first, List.forall_mem_singleton.mpr (sound_items second)⟩
  · exact ⟨_, [], stored, rfl, ⟨List.nodup_nil, by simp⟩, by simp⟩

theorem exists_output?_personality (finished : Finished ⟨{}, .builtin⟩ l c r) :
    ∃ s, ∃ scores : List (String × Float), c.output? "personality" = some s ∧
      listField s "traits" = scores.map traitRecord ∧
      scoreEntries s = scores.map (fun e => (e.1, .ofFloat e.2)) ∧
      (l.Sound → ∀ e ∈ scores, e.2.isFinite = true) := by
  have stored :=
    finished.output?_of_dataExists (s := Section.personality) (by simp [Section.defaults]) rfl
  have made : Section.personality.made c = personality (c.inputValue "personality") := by
    have chain : Section.personality.builtins = [.personality] := by decide
    rw [Section.made, chain]
    rfl
  rw [made] at stored
  split at stored
  · have input (sound : l.Sound) : (c.inputValue "personality").Sound :=
      sound_inputValue finished sound (by decide : "personality" ≠ "caller") rfl
    obtain ⟨shown, kept⟩ := personality_eq (c.inputValue "personality")
    exact ⟨_, _, stored, shown, kept, fun sound => isFinite_traitScores (input sound)⟩
  · exact ⟨_, [], stored, rfl, rfl, by simp⟩

/-- Guidance takes what the document shows. -/
theorem attributes_of_outputs (finished : Finished ⟨{}, .builtin⟩ l c r) :
    voiceAttributes c = r.spoken ∧ (r.targets.map Attribute.id).Nodup ∧
      (l.Sound → r.targets.length = (r.items "behaviorTargets" "targets").length ∧
        r.traits.length = (r.items "personality" "traits").length) := by
  obtain ⟨t, targets, output, listed, settled, finite⟩ := exists_output?_targets finished
  obtain ⟨s, scores, output', listed', scored, finite'⟩ := exists_output?_personality finished
  have items : r.items "behaviorTargets" "targets" = targets.map Target.toJson :=
    (finished.items_of_output (s := Section.behaviorTargets)
      (by simp [Section.defaults]) output (by decide)).trans listed
  have items' : r.items "personality" "traits" = scores.map traitRecord :=
    (finished.items_of_output (s := Section.personality)
      (by simp [Section.defaults]) output' (by decide)).trans listed'
  rw [Composition.spoken, Composition.targets, Composition.traits, items, items']
  refine ⟨voiceAttributes_eq output output' listed settled scored, nodup_attributes settled, ?_⟩
  intro sound
  rw [filterMap_toJson, filterMap_traitRecord, List.filter_eq_self.mpr (finite sound),
    List.filter_eq_self.mpr (finite' sound)]
  simp

theorem withoutPrivate_guidance (guidance count fragments : Json) :
    withoutPrivate "_" (.obj [("guidance", guidance), ("count", count), ("_fragments", fragments)]) =
      .obj [("guidance", guidance), ("count", count)] := by
  simp [withoutPrivate, List.isPrefixOf]

theorem output?_voiceGuidance (finished : Finished ⟨{}, .builtin⟩ l c r)
    (active : "voice_guidance" ∈ r.activated) : c.output? "voiceGuidance" = some (voiceGuidance c) := by
  have listed : Section.voiceGuidance ∈ Config.resolvedSections {} := by simp [Section.defaults]
  have activated := (finished.activated Section.voiceGuidance listed).mp active
  have stored := finished.stored Section.voiceGuidance listed
  rw [if_pos activated] at stored
  have chain : Section.voiceGuidance.builtins = [.voiceGuidance] := by decide
  rw [Section.made, chain] at stored
  exact stored

/-- Unless templates are loaded, active guidance is one sentence for each target, and then one for each
trait that no target names; if there are none, it is `null`. Of the targets and traits that the document
shows, all count as long as the data are sound. -/
theorem voiceGuidance_of_run {l : Loaded} (subject : l.subject.isObject = true)
    (plain : l.fragment? "voiceTemplates" = none) :
    ∃ p r, build {} .builtin = .ok p ∧ p.compose l = .ok r ∧
      ("voice_guidance" ∈ r.activated →
        (r.document.get? "voiceGuidance" = some .null ↔ r.spoken = []) ∧
        (r.spoken ≠ [] → r.document.get? "voiceGuidance" =
          some (.obj [("guidance", .ofStrings (r.spoken.map sentence)),
            ("count", .ofNat r.spoken.length)]))) ∧
      (r.spoken.map Attribute.id).Nodup ∧
      (l.Sound → r.targets.length = (r.items "behaviorTargets" "targets").length ∧
        r.traits.length = (r.items "personality" "traits").length) := by
  obtain ⟨c, r, composed, finished⟩ := exists_finished_defaults subject
  obtain ⟨spoken, nodup, complete⟩ := attributes_of_outputs finished
  have catalogue : voiceCatalogue c = voiceTemplates := by
    have source := finished.source?_of_fragment (by decide : "voiceTemplates" ≠ "caller") rfl
    rw [plain] at source
    rw [voiceCatalogue, source]
    rfl
  obtain ⟨fragments, guided⟩ := exists_voiceGuidance catalogue
  rw [spoken] at guided
  refine ⟨_, r, build_defaults, composed, fun active => ?_, nodup_withNew nodup _, complete⟩
  have told : r.document.get? "voiceGuidance" = some (withoutPrivate "_" (voiceGuidance c)) := by
    rw [← Option.map_some, ← output?_voiceGuidance finished active]
    exact finished.shown Section.voiceGuidance (by simp [Section.defaults])
  rw [told, guided]
  refine ⟨?_, fun voiced => ?_⟩
  · by_cases silent : r.spoken = [] <;> simp [silent, withoutPrivate]
  · rw [if_neg voiced, withoutPrivate_guidance]

/-- A target whose name is partly a tag, and traits, one of which the target names. -/
def warm : Loaded where
  subject := .obj [("name", .str "Ada")]
  fragments := [("behaviorTargets", .arr [.obj [("parameterId", .str "warmth"),
      ("name", .str "Warm\x7b\x7bth\x7d\x7dness"), ("targetValue", .num (.int 1))]]),
    ("personality", .obj [("warmth", .num (.int 0)), ("speaking_pace", .num (.int 0))])]

theorem voiceGuidance_of_warm :
    warm.subject.isObject = true ∧ warm.fragment? "voiceTemplates" = none ∧
    ∃ p r, build {} .builtin = .ok p ∧ p.compose warm = .ok r ∧ "voice_guidance" ∈ r.activated ∧
      r.document.get? "voiceGuidance" = some (.obj [
        ("guidance", .ofStrings [
          "Lean into warmness: aim for 1.00 and make it a clear feature of how you speak.",
          "Keep speaking pace understated (target 0.00)."]),
        ("count", .ofNat 2)]) := by
  have subject : warm.subject.isObject = true := rfl
  have plain : warm.fragment? "voiceTemplates" = none := rfl
  obtain ⟨p, r, built, composed, guided, -⟩ := voiceGuidance_of_run subject plain
  have ran : ((compose ⟨{}, .builtin⟩ warm).toOption.map fun r =>
      (r.activated.contains "voice_guidance", r.spoken.map sentence)) = some (true, [
        "Lean into warmness: aim for 1.00 and make it a clear feature of how you speak.",
        "Keep speaking pace understated (target 0.00)."]) := by
    decide +kernel
  rw [← build_eq built, composed] at ran
  obtain ⟨active, sentences⟩ := Prod.mk.inj (Option.some.inj ran)
  have active : "voice_guidance" ∈ r.activated := List.contains_iff_mem.mp active
  obtain ⟨-, told⟩ := guided active
  have count := congrArg List.length sentences
  rw [List.length_map] at count
  have spoken : r.spoken ≠ [] := fun silent => by
    rw [silent] at count
    cases count
  refine ⟨subject, plain, p, r, built, composed, active, ?_⟩
  rw [told spoken, sentences, count]
  rfl

end Composer

end Prompt
