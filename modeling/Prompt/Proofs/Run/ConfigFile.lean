import Prompt.Proofs.Section.Reread
import Prompt.Run.Config

/-!
# Configuration files

The text of a configuration file against the same text decoded as a plain record. Both give the same
configuration where the text is an object. Where it is an array of the fields, the file loses its section list
(`read_eq_decoded`).
-/

namespace Prompt.Config
open Json

theorem ofJson_obj {es : Entries Json} (once : es.keys.Nodup) {c : Config} :
    ofJson (.obj es) = .ok c ↔ orElse es "subjectKey" .string "caller" = .ok c.subjectKey ∧
      orElse es "historySource" .string "recentCalls" = .ok c.historySource ∧
      orElse es "memorySource" .string "memories" = .ok c.memorySource ∧
      orElse es "privatePrefix" .string "_" = .ok c.privateStart ∧
      orElse es "unknownCondition" UnknownPolicy.ofJson .failClosed = .ok c.unknownCondition ∧
      orElse es "validateOnLoad" .bool true = .ok c.validateOnLoad ∧
      orElse es "sections" (.optional (.list Section.ofJson)) none = .ok c.sections := by
  simp only [ofJson, bind_eq_ok]
  constructor
  · rintro ⟨fs, record, a, subject, b, history, c, memory, d, start, e, policy, f, validate, g, sections,
      same⟩
    cases eq_of_readRecord record
    cases same
    exact ⟨subject, history, memory, start, policy, validate, sections⟩
  · rintro ⟨subject, history, memory, start, policy, validate, sections⟩
    refine ⟨es, readRecord_obj once ?_, _, subject, _, history, _, memory, _, start, _, policy, _, validate, _,
      sections, rfl⟩
    simp only [fields, List.forall_mem_cons, fits_defaulted]
    exact ⟨mayHave_of_orElse subject, mayHave_of_orElse history, mayHave_of_orElse memory,
      mayHave_of_orElse start, mayHave_of_orElse policy, mayHave_of_orElse validate,
      mayHave_of_orElse sections, List.forall_mem_nil _⟩

/-- The list is checked apart from the other fields. -/
theorem read_ok {text : String} {j : Json} {c : Config} (reads : Json.read text = .ok j)
    (accepted : Config.read text = .ok c) :
    ∃ d, ofJson (splitSections j).1 = .ok d ∧ c = { d with sections := c.sections } ∧
      ((splitSections j).2 = none ∧ c.sections = none ∨
        ∃ l sections, (splitSections j).2 = some l ∧ Section.listOfJson l = .ok sections ∧
          c.sections = some sections) := by
  rw [Config.read, bind_eq_ok] at accepted
  obtain ⟨j', reads', accepted⟩ := accepted
  cases reads.symm.trans (mapError_eq_ok.1 reads')
  dsimp only at accepted
  split at accepted
  · next l found =>
      obtain ⟨list, checked, accepted⟩ := bind_eq_ok.1 accepted
      obtain ⟨d, decodes, same⟩ := bind_eq_ok.1 accepted
      obtain ⟨sections, listed, rfl⟩ := map_eq_ok.1 checked
      cases same
      exact ⟨d, mapError_eq_ok.1 decodes, rfl, .inr ⟨l, sections, found, listed, rfl⟩⟩
  · next missing =>
      obtain ⟨list, absent, accepted⟩ := bind_eq_ok.1 accepted
      obtain ⟨d, decodes, same⟩ := bind_eq_ok.1 accepted
      cases absent
      cases same
      exact ⟨d, mapError_eq_ok.1 decodes, rfl, .inl ⟨missing, rfl⟩⟩

theorem read_of_object {text : String} {es : Entries Json} {c d : Config}
    (reads : Json.read text = .ok (.obj es)) (accepted : Config.read text = .ok c)
    (decodes : ofJson (.obj es) = .ok d) : c = d := by
  obtain ⟨once, -⟩ := (distinct_of_read reads).entries
  obtain ⟨rest, others, same, list⟩ := read_ok reads accepted
  obtain ⟨subject, history, memory, start, policy, validate, -⟩ :=
    (ofJson_obj (Entries.nodup_keys_remove once "sections")).1 others
  have kept {α : Type} {name : String} {decoder : Decoder α} {absent a : α} (other : "sections" ≠ name)
      (found : orElse (Entries.remove es "sections") name decoder absent = .ok a) :
      orElse es name decoder absent = .ok a := by
    rwa [orElse, Entries.get?_remove_of_ne once other] at found
  have sections : orElse es "sections" (.optional (.list Section.ofJson)) none = .ok c.sections := by
    rcases list with ⟨missing, absent⟩ | ⟨l, ss, found, checked, present⟩
    · rw [absent]
      exact orElse_of_missing missing
    · obtain ⟨fits, decodes⟩ := Section.listOfJson_ok.1 checked
      rw [present]
      refine orElse_of_get? found (optional_of_ok ?_ decodes)
      rintro rfl
      cases fits
  have whole : ofJson (.obj es) = .ok { rest with sections := c.sections } :=
    (ofJson_obj once).2 ⟨kept (by decide) subject, kept (by decide) history, kept (by decide) memory,
      kept (by decide) start, kept (by decide) policy, kept (by decide) validate, sections⟩
  rw [same]
  exact Except.ok.inj (whole.symm.trans decodes)

theorem read_of_other {text : String} {j : Json} {c d : Config} (reads : Json.read text = .ok j)
    (other : j.isObject = false) (accepted : Config.read text = .ok c) (decodes : ofJson j = .ok d) :
    c = { d with sections := none } := by
  have split : splitSections j = (j, none) := by
    cases j with
    | obj es => cases other
    | _ => rfl
  obtain ⟨rest, decodes', same, list⟩ := read_ok reads accepted
  rw [split] at decodes' list
  cases decodes.symm.trans decodes'
  rcases list with ⟨-, absent⟩ | ⟨l, ss, found, -⟩
  · rwa [absent] at same
  · cases found

/-- The section list of a file counts where the text is an object; an array of the fields loses it. -/
theorem read_eq_decoded {text : String} {j : Json} {c d : Config} (reads : Json.read text = .ok j)
    (accepted : Config.read text = .ok c) (decodes : ofJson j = .ok d) :
    c = (if j.isObject then d else { d with sections := none }) ∧
      (c = d ↔ j.isObject = true ∨ d.sections = none) := by
  cases object : j.isObject with
  | true =>
      cases j with
      | obj es =>
          have same := read_of_object reads accepted decodes
          exact ⟨same, iff_of_true same (.inl rfl)⟩
      | _ => cases object
  | false =>
      have same := read_of_other reads object accepted decodes
      refine ⟨same, ?_⟩
      rw [same]
      constructor
      · intro whole
        exact .inr (congrArg Config.sections whole).symm
      · rintro (⟨⟨⟩⟩ | absent)
        rw [← absent]

/-- The array of the fields. -/
def positional (c : Config) : Json := .arr (c.toJson.entries.map Prod.snd)

def pupilFacts : Section := { id := "facts", outputKey := "facts", source := .single "pupil" }

def pupil : Config := { subjectKey := "pupil", sections := some [pupilFacts] }

theorem sound_pupil : ∀ e ∈ pupil.toJson.entries, e.2.Sound := by
  have decoded : pupilFacts.Decoded ∧ pupilFacts.Flat := ⟨⟨⟨trivial, by decide, by decide⟩, nofun⟩, nofun⟩
  have list := Section.within_listToJson (List.forall_mem_singleton.2 decoded)
  simp only [pupil, toJson, entries, asEntries?, Option.getD_some, List.forall_mem_append, List.forall_mem_cons]
  exact ⟨⟨.str _, .str _, .str _, .str _, .str _, .bool _, List.forall_mem_nil _⟩,
    List.forall_mem_singleton.2 list.1⟩

theorem read_pupil : Json.read pupil.toJson.compact = .ok pupil.toJson := by
  have sound : pupil.toJson.Sound := .obj (by decide) sound_pupil
  exact (read_compact sound).1 (by decide)

theorem read_eq_decoded_pupil :
    ofJson pupil.toJson = .ok pupil ∧ Config.read pupil.toJson.compact = .ok pupil := by
  have decodes : ofJson pupil.toJson = .ok pupil := rfl
  obtain ⟨c, accepted⟩ : ∃ c, Config.read pupil.toJson.compact = .ok c := by
    rw [Config.read, read_pupil]
    exact ⟨_, rfl⟩
  rw [accepted, (read_eq_decoded read_pupil accepted decodes).2.2 (.inl rfl)]
  exact ⟨decodes, rfl⟩

/-- The record has a section list, and the file goes without. -/
theorem read_positional_pupil :
    ofJson pupil.positional = .ok pupil ∧
      ∃ c, Config.read pupil.positional.compact = .ok c ∧ c.sections = none ∧ c ≠ pupil := by
  have sound : pupil.positional.Sound := .arr (List.forall_mem_map.2 sound_pupil)
  have reads : Json.read pupil.positional.compact = .ok pupil.positional :=
    (read_compact sound).1 (by decide)
  refine ⟨rfl, { pupil with sections := none }, ?_, rfl, ?_⟩
  · rw [Config.read, reads]
    rfl
  · intro same
    cases congrArg Config.sections same

end Prompt.Config
