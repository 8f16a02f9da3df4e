import Prompt.Proofs.Section.Reread

/-!
# Sections that are built

A section made by the builder comes back from its JSON, unless its fallback is to store the value `null`: that
one is read as no value, and `{}` is stored in its place (`decode_built`).
-/

namespace Prompt
open Json

/-- What the constructors of fallbacks give. -/
inductive Fallback.Offered : Fallback → Prop
  | nothing : Offered nothing
  | emptyObject : Offered emptyObject
  | withValue (v : Json) : Offered (withValue v)
  | omitted : Offered omitted

theorem Fallback.Offered.stored?_withoutNull {f : Fallback} (offered : f.Offered) :
    f.withoutNull.stored? = f.stored? ↔ f.value ≠ some .null := by
  constructor
  · intro same null
    cases offered with
    | withValue v => cases null; cases same
    | _ => cases null
  · intro solid
    rw [withoutNull_eq_self_iff.2 solid]

theorem Fallback.rereads_withoutNull (f : Fallback) : f.rereads.withoutNull = f.withoutNull.rereads := by
  obtain ⟨action, _ | v⟩ := f
  · rfl
  · cases v with
    | num n => cases n <;> rfl
    | _ => rfl

namespace Section

/-- Made from an id, a key and a source by any settings. Priorities are whole numbers of 32 bits. -/
inductive Built : Section → Prop
  | start (id outputKey : String) (source : Source) : Built { id, outputKey, source }
  | onlyWhen {s : Section} {c : Condition} (built : Built s) (proper : c.Proper) : Built (s.onlyWhen c)
  | withFallback {s : Section} {f : Fallback} (built : Built s) (offered : f.Offered) :
      Built (s.withFallback f)
  | through {s : Section} (built : Built s) (name : String) : Built (s.through name)
  | throughAll {s : Section} (built : Built s) (names : List String) : Built (s.throughAll names)
  | behind {s : Section} (built : Built s) (ids : List String) : Built (s.behind ids)
  | withPriority {s : Section} {n : Int} (built : Built s) (least : -2 ^ 31 ≤ n) (less : n < 2 ^ 31) :
      Built (s.withPriority n)

theorem Built.proper {s : Section} (built : s.Built) : s.Proper := by
  induction built with
  | start => exact ⟨trivial, show -2 ^ 31 ≤ (0 : Int) by decide, show (0 : Int) < 2 ^ 31 by decide⟩
  | onlyWhen _ proper ih => exact ⟨proper, ih.least, ih.less⟩
  | withPriority _ least less ih => exact ⟨ih.condition, least, less⟩
  | withFallback _ _ ih => exact ⟨ih.condition, ih.least, ih.less⟩
  | through _ _ ih => exact ⟨ih.condition, ih.least, ih.less⟩
  | throughAll _ _ ih => exact ⟨ih.condition, ih.least, ih.less⟩
  | behind _ _ ih => exact ⟨ih.condition, ih.least, ih.less⟩

theorem Built.offered {s : Section} (built : s.Built) : s.fallback.Offered := by
  induction built with
  | start => exact .nothing
  | withFallback _ offered _ => exact offered
  | onlyWhen _ _ ih => exact ih
  | through _ _ ih => exact ih
  | throughAll _ _ ih => exact ih
  | behind _ _ ih => exact ih
  | withPriority _ _ _ ih => exact ih

theorem ofJson_rereads {s : Section} (proper : s.Proper) :
    ofJson s.toJson.rereads = .ok s.returned.rereads := by
  have kept : s.rereads.Proper := ⟨proper.condition, proper.least, proper.less⟩
  rw [rereads_toJson, ofJson_toJson kept]
  exact congrArg (fun f => Except.ok (s.withFallback f)) s.fallback.rereads_withoutNull

/-- As a value, and as a text that is read, the section comes back with the value `null` taken out of its
fallback; doubles are read anew in a text. -/
theorem decode_built {s : Section} (built : s.Built) :
    ofJson s.toJson = .ok s.returned ∧
      (s.toJson.Within depthLimit →
        ∃ j, Json.read s.toJson.compact = .ok j ∧ ofJson j = .ok s.returned.rereads) ∧
      (s.returned = s ↔ s.fallback.value ≠ some .null) ∧
      (s.returned.fallback.stored? = s.fallback.stored? ↔ s.fallback.value ≠ some .null) := by
  refine ⟨ofJson_toJson built.proper, ?_, returned_eq_self_iff, built.offered.stored?_withoutNull⟩
  intro within
  exact ⟨_, (read_compact within.1).1 within.2, ofJson_rereads built.proper⟩

def reminder (v : Json) : Section :=
  (((({ id := "reminder", outputKey := "notes", source := .several ["notes", "caller"] } : Section).onlyWhen
    (.custom "weekend")).withFallback (.withValue v)).behind ["facts"]).withPriority 7

theorem built_reminder (v : Json) : (reminder v).Built := by
  have tag : (Condition.custom "weekend").Proper := show "weekend" ∉ Condition.knownTags by decide
  have start : Built _ := .start "reminder" "notes" (.several ["notes", "caller"])
  have offered := (start.onlyWhen tag).withFallback (.withValue v)
  exact (offered.behind ["facts"]).withPriority (by decide) (by decide)

theorem decode_reminder_list :
    (reminder (.arr [.null])).Built ∧
      ofJson (reminder (.arr [.null])).toJson = .ok (reminder (.arr [.null])) := by
  have built := built_reminder (.arr [.null])
  obtain ⟨decodes, -, same, -⟩ := decode_built built
  rw [same.2 nofun] at decodes
  exact ⟨built, decodes⟩

/-- It stores `null`, and when it comes back it stores `{}`. -/
theorem decode_reminder_null :
    (reminder .null).Built ∧ ofJson (reminder .null).toJson ≠ .ok (reminder .null) ∧
      (reminder .null).fallback.stored? = some .null ∧
      ∃ t, ofJson (reminder .null).toJson = .ok t ∧ t.fallback.stored? = some (.obj []) := by
  have built := built_reminder .null
  have decodes := ofJson_toJson built.proper
  refine ⟨built, ?_, rfl, _, decodes, rfl⟩
  rw [decodes]
  intro same
  exact returned_eq_self_iff.1 (Except.ok.inj same) rfl

end Section

end Prompt
