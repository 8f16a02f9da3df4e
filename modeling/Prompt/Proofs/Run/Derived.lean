import Prompt.Proofs.Run.Agreement
import Prompt.Proofs.Run.Grouping
import Prompt.Transform.Curriculum

/-!
# The grouping as an input

A name of one step behind the subject leads to the field of that name, and where the field is missing or `null`
to a record of the id of the grouping (`resolveInput_subjectName`). So a subject of which only the id is
known has its domain (`resolveInput_of_id_alone`). A field that is there and false stays as it is.
-/

namespace Prompt

theorem Text.splitOnChar_of_not_mem {sep : Char} {s : List Char} (free : sep ∉ s) :
    splitOnChar sep s = [s] := by
  induction s with
  | nil => rfl
  | cons c s ih =>
      rw [List.mem_cons, not_or] at free
      rw [splitOnChar, if_neg (Ne.symm free.1), ih free.2]

/-- A path of one step is a field. -/
theorem Json.resolve?_of_not_mem {j : Json} (object : j.isObject = true) {step : String}
    (single : '.' ∉ step.toList) :
    j.resolve? step.toList = if step = "" then none else j.field? step := by
  have segments := Text.splitOnChar_of_not_mem single
  have head : pathHead step.toList = step := by
    rw [pathHead, segments]
    exact String.ofList_toList
  rw [resolve?_of_isObject object, head, segments]
  by_cases blank : step = ""
  · simp [blank]
  · have named : step.toList.isEmpty = false := by simp [blank]
    rw [named, if_neg Bool.false_ne_true, if_neg blank]
    exact Option.bind_fun_some (j.field? step)

namespace Context

def subjectName (step : String) : String := "subject." ++ step

theorem subjectPath?_subjectName (step : String) : subjectPath? (subjectName step) = some step.toList :=
  Text.after?_eq_some_iff.mpr String.toList_append

theorem subjectName_ne_wholeContext (step : String) : subjectName step ≠ wholeContext := by
  intro same
  have path := subjectPath?_subjectName step
  rw [same] at path
  cases path

theorem derivedGrouping?_subjectName (c : Context) {step : String} (single : '.' ∉ step.toList) :
    c.derivedGrouping? (subjectName step) =
      (groupingId? c.subject step).map fun id => .obj [("id", .str id)] := by
  simp [derivedGrouping?, subjectPath?_subjectName, single]

section Step
variable {c : Context} {step : String} (subject : c.subject.isObject = true)
  (single : '.' ∉ step.toList) (apart : c.subjectKey ≠ subjectName step)
include subject single apart

theorem source?_subjectName : c.source? (subjectName step) =
    if step = "" then none else (c.subject.field? step).filter fun v => !v.isNull := by
  unfold source?
  simp only [if_neg (Ne.symm apart), subjectPath?_subjectName]
  rw [Json.resolve?_of_not_mem subject single]
  split <;> rfl

theorem resolveInput_subjectName : c.resolveInput (.single (subjectName step)) =
    ((if step = "" then none else (c.subject.field? step).filter fun v => !v.isNull).or
      ((groupingId? c.subject step).map fun id => .obj [("id", .str id)])).getD .null := by
  have part : Source.isWhole (.single (subjectName step)) = false := by
    simp [Source.isWhole, Source.names, subjectName_ne_wholeContext]
  rw [resolveInput, if_neg (Bool.eq_false_iff.mp part), inputValue, source?_subjectName subject single apart,
    c.derivedGrouping?_subjectName single]

/-- A field that is there is the input, be it true or false. -/
theorem resolveInput_of_field (named : step ≠ "") {g : Json} (found : c.subject.field? step = some g)
    (given : g ≠ .null) : c.resolveInput (.single (subjectName step)) = g := by
  have kept : (some g).filter (fun v => !v.isNull) = some g := by
    cases g with
    | null => exact absurd rfl given
    | _ => rfl
  rw [resolveInput_subjectName subject single apart, if_neg named, found, kept]
  rfl

end Step

theorem domainFacts_id (id : String) : Transform.domainFacts (.obj [("id", .str id)]) =
    .obj [("id", .str id), ("name", .null), ("description", .null)] :=
  rfl

/-- Where the field of a relation is missing or `null` and the field of its id has a usable id, the sections
that ask for the relation are active, the name of the relation leads to a record of that id, and the facts of
such a domain are not `null`. -/
theorem resolveInput_of_id_alone {c : Context} {relation : String} {j : Json}
    (subject : c.subject.isObject = true) (single : '.' ∉ relation.toList)
    (apart : c.subjectKey ≠ subjectName relation)
    (absent : relation = "" ∨ ∀ g, c.subject.field? relation = some g → g = .null)
    (own : c.subject.field? (idField relation) = some j) (usable : j.IsId) :
    (∀ (s : Section) (policy : UnknownPolicy), s.condition = .hasRelation relation →
      (s.activation c policy).activated = true) ∧
    ∃ id, idText? j = some id ∧
      c.resolveInput (.single (subjectName relation)) = .obj [("id", .str id)] ∧
      Transform.domainFacts (c.resolveInput (.single (subjectName relation))) =
        .obj [("id", .str id), ("name", .null), ("description", .null)] := by
  obtain ⟨id, text⟩ := Option.isSome_iff_exists.mp (Json.isSome_idText?.mpr usable)
  have grouping : groupingId? c.subject relation = some id := by
    rw [groupingId?, own, Option.bind_some, text, Option.some_or]
  have nothing : (if relation = "" then none
      else (c.subject.field? relation).filter fun v => !v.isNull) = none := by
    rcases absent with blank | missing
    · exact if_pos blank
    · cases found : c.subject.field? relation with
      | none => simp
      | some g => simp [missing g found, Json.isNull]
  have input : c.resolveInput (.single (subjectName relation)) = .obj [("id", .str id)] := by
    rw [resolveInput_subjectName subject single apart, nothing, grouping]
    rfl
  refine ⟨fun s policy asks => ?_, id, text, input, ?_⟩
  · rw [Section.activated_of_hasRelation asks, hasGrouping, grouping, Option.isSome_some, Bool.or_true]
  · rw [input, domainFacts_id]

def ofSubject (subject : Json) : Context := { loaded := { subject }, subjectKey := "caller" }

theorem resolveInput_of_id_null :
    let c := ofSubject (.obj [("club", .null), ("clubId", .str "chess")])
    c.subject.isObject = true ∧ '.' ∉ "club".toList ∧ c.subjectKey ≠ subjectName "club" ∧
      c.subject.field? "club" = some .null ∧ (Json.str "chess").IsId ∧
      (Composer.clubFacts.activation c .failClosed).activated = true ∧
      c.resolveInput (.single "subject.club") = .obj [("id", .str "chess")] ∧
      Transform.domainFacts (c.resolveInput (.single "subject.club")) =
        .obj [("id", .str "chess"), ("name", .null), ("description", .null)] := by
  intro c
  have single : '.' ∉ "club".toList := by decide
  have apart : c.subjectKey ≠ subjectName "club" := by decide
  have usable : (Json.str "chess").IsId := by simp [Json.IsId]
  have absent : ∀ g, c.subject.field? "club" = some g → g = .null := fun g found =>
    (Option.some.inj found).symm
  obtain ⟨active, id, text, input, facts⟩ :=
    resolveInput_of_id_alone rfl single apart (.inr absent) rfl usable
  cases text
  exact ⟨rfl, single, apart, rfl, usable, active Composer.clubFacts .failClosed rfl, input, facts⟩

/-- The record of the club was emptied and its id is left: the subject counts as a member, of no club. -/
theorem resolveInput_of_emptied :
    let c := ofSubject (.obj [("club", .obj []), ("clubId", .str "chess")])
    c.subject.isObject = true ∧ c.subjectKey ≠ subjectName "club" ∧
      Json.isTruthy? (c.subject.field? "club") = false ∧ c.subject.HoldsId (idField "club") ∧
      (∀ (s : Section) (policy : UnknownPolicy), s.condition = .hasRelation "club" →
        (s.activation c policy).activated = true) ∧
      c.resolveInput (.single (subjectName "club")) = .obj [] ∧
      Transform.domainFacts (c.resolveInput (.single (subjectName "club"))) = .null := by
  intro c
  have apart : c.subjectKey ≠ subjectName "club" := by decide
  have usable : (Json.str "chess").IsId := by simp [Json.IsId]
  have input : c.resolveInput (.single (subjectName "club")) = .obj [] :=
    resolveInput_of_field rfl (by decide) apart (by decide) rfl (by simp)
  refine ⟨rfl, apart, rfl, ⟨_, rfl, usable⟩, fun s policy asks => ?_, input, ?_⟩
  · exact Section.activated_of_hasRelation asks c policy
  · rw [input]
    rfl

end Context

end Prompt
