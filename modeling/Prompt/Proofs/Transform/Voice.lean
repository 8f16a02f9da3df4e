import Prompt.Proofs.Json.Numbers
import Prompt.Proofs.Template.Framed
import Prompt.Proofs.Template.Lookup
import Prompt.Transform.Target

/-!
# Sentences for the voice

The built-in templates speak of one level each, and every score has one level: of the three one renders, and
it renders to a sentence whatever the name of the attribute is (`text_attributeFragment?`). Braces in a name
can only take away from the name itself.
-/

namespace Prompt.Transform
open Template

/-- A template for one level: a name and a value between plain words. -/
structure Phrase where
  level : Level
  lead : String
  middle : String
  tail : String
  plain : Plain lead.toList ∧ Plain middle.toList ∧ Plain tail.toList
  starts : isInk lead.toList.head? = true
  ends : isInk tail.toList.getLast? = true
  unbroken : '\n' ∉ lead.toList ++ middle.toList ++ tail.toList

theorem reads_name : Directive.of "name".toList = .variable "name".toList := by
  decide

def nameTag : ValueTag := ⟨"name".toList, "name".toList, reads_name⟩

def valueTag : ValueTag := ⟨"value".toList, "value".toList, by decide⟩

def levelTag (level : Level) : BlockTag where
  inner := ("#if " ++ level.name).toList
  opening := ⟨.whenTrue, level.name.toList⟩
  reads := by cases level <;> decide

namespace Phrase

def markup (p : Phrase) : Markup :=
  .block (levelTag p.level)
    (.text ⟨p.lead.toList, p.plain.1⟩ <| .value nameTag <| .text ⟨p.middle.toList, p.plain.2.1⟩ <|
      .value valueTag <| .text ⟨p.tail.toList, p.plain.2.2⟩ .done) .done

def template (p : Phrase) : String := String.ofList p.markup.print

def high : Phrase where
  level := .high
  lead := "Lean into "
  middle := ": aim for "
  tail := " and make it a clear feature of how you speak."
  plain := by decide
  starts := by decide
  ends := by decide
  unbroken := by decide

def low : Phrase where
  level := .low
  lead := "Keep "
  middle := " understated (target "
  tail := ")."
  plain := by decide
  starts := by decide
  ends := by decide
  unbroken := by decide

def medium : Phrase where
  level := .medium
  lead := "Use a moderate level of "
  middle := " ("
  tail := ")."
  plain := by decide
  starts := by decide
  ends := by decide
  unbroken := by decide

end Phrase

theorem voiceTemplates_eq : voiceTemplates =
    [{ id := "voice-high", template := Phrase.high.template },
     { id := "voice-low", template := Phrase.low.template, priority := 1 },
     { id := "voice-medium", template := Phrase.medium.template, priority := 2 }] := by
  have printed : voiceTemplates.map Entry.template =
      [Phrase.high.template, Phrase.low.template, Phrase.medium.template] := by
    decide +kernel
  simp only [voiceTemplates, List.map_cons, List.map_nil, List.cons.injEq, and_true] at printed
  rw [voiceTemplates, printed.1, printed.2.1, printed.2.2]

/-! ### What a value looks like -/

def valueChars (a : Attribute) : List Char := (Decimal.Binary.ofFloat a.value).fixed 2

theorem mem_fixed {places : Nat} {b : Decimal.Binary} {c : Char} (member : c ∈ b.fixed places) :
    (c.isDigit || c = '.' || c = '-') = true := by
  have sign : c ∈ (if b.negative then ['-'] else []) → c = '-' := by
    cases b.negative <;> simp
  have digit {n k : Nat} (digits : c ∈ List.replicate k '0' ++ Nat.toDigits 10 n) : c.isDigit = true :=
    (List.mem_append.1 digits).elim (Json.digital_replicate k c) (Json.digital_toDigits n c)
  simp only [Decimal.Binary.fixed, List.mem_append] at member
  rcases member with (signed | whole) | point
  · simp [sign signed]
  · simp [digit (List.mem_of_mem_take whole)]
  · split at point
    · cases point
    · rcases List.mem_cons.1 point with rfl | fraction
      · simp
      · simp [digit (List.mem_of_mem_drop fraction)]

theorem plain_valueChars (a : Attribute) : Plain (valueChars a) :=
  plain_of_all (fun _ => mem_fixed) (by decide) (by decide)

theorem unbroken_valueChars (a : Attribute) : '\n' ∉ valueChars a := fun member =>
  absurd (mem_fixed member) (by decide)

/-! ### The text of a phrase -/

/-- A name as it shows: without tags, and with no more than two line breaks in a row. -/
def shownChars (name : String) : List Char := limitBreaks 0 (eraseTags (scan name.toList))

namespace Phrase
variable (p : Phrase) (a : Attribute) (t : Thresholds)

theorem eval_markup : p.markup.eval (a.data t) none =
    if t.level a.value = p.level then
      p.lead.toList ++ a.name.toList ++ (p.middle.toList ++ valueChars a ++ p.tail.toList)
    else [] := by
  have flag : (a.data t).resolve? (levelTag p.level).path = some (.bool (t.level a.value = p.level)) := by
    cases level : p.level <;> rfl
  have name : (a.data t).resolve? nameTag.path = some (.str a.name) := rfl
  have value : (a.data t).resolve? valueTag.path = some (.str (String.ofList (valueChars a))) := rfl
  have kind : (levelTag p.level).kind = .whenTrue := rfl
  simp [markup, Markup.eval, flag, kind, valueText, name, value, Json.isTruthy, Json.display?, Json.display]

def text (p : Phrase) (a : Attribute) : List Char :=
  p.lead.toList ++ shownChars a.name ++ (p.middle.toList ++ valueChars a ++ p.tail.toList)

theorem compileChars_print : compileChars p.markup.print (a.data t) =
    if t.level a.value = p.level then p.text a else [] := by
  have distinct : p.markup.Distinct := ⟨List.not_mem_nil, trivial, trivial⟩
  have unscoped : p.markup.Unscoped := ⟨nofun, trivial, trivial⟩
  have unlooped : ['e', 'a', 'c', 'h'] ∉ p.markup.closeNames := by
    change _ ∉ [['i', 'f']]
    decide
  have plain : Plain (p.middle.toList ++ valueChars a ++ p.tail.toList) := by
    simp [p.plain, plain_valueChars a]
  have ends : isInk (p.middle.toList ++ valueChars a ++ p.tail.toList).getLast? = true := by
    have ends := p.ends
    rw [List.getLast?_append]
    cases last : p.tail.toList.getLast? with
    | none => simp [last, isInk] at ends
    | some c => rwa [last] at ends
  have unbroken := p.unbroken
  simp only [List.mem_append, not_or] at unbroken
  rw [compileChars, Markup.print, expand_scan _ p.markup.plain_pieces,
    p.markup.expand_of_unlooped distinct unscoped unlooped, p.eval_markup]
  split
  · rw [eraseTags_framed p.plain.1.1 plain,
      normalize_framed p.starts ends ⟨unbroken.1.1, by simp [unbroken, unbroken_valueChars a]⟩]
    rfl
  · rw [eraseTags_scan plain_nil]
    rfl

theorem hasInk_text : Text.hasInk (String.ofList (p.text a)) = true := by
  have starts := p.starts
  rw [Text.hasInk, String.toList_ofList, List.any_eq_true]
  cases first : p.lead.toList.head? with
  | none => simp [first, isInk] at starts
  | some c =>
      refine ⟨c, ?_, by simpa [first, isInk] using starts⟩
      rw [text, List.append_assoc]
      exact List.mem_append_left _ (List.mem_of_head? first)

theorem findSome?_render? (templateId id : String) (priority : Int) (rest : List Entry) :
    ({ id := templateId, priority, template := p.template } :: rest).findSome?
        (fun e => (e.render? id (a.data t)).map Fragment.text) =
      if t.level a.value = p.level then some (String.ofList (p.text a))
      else rest.findSome? fun e => (e.render? id (a.data t)).map Fragment.text := by
  rw [List.findSome?_cons, Entry.render?, compile, template, String.toList_ofList, compileChars_print]
  by_cases own : t.level a.value = p.level
  · simp [own, p.hasInk_text a]
  · rw [if_neg own, if_neg own]
    rfl

theorem ofList_text : String.ofList (p.text a) = p.lead ++ String.ofList (shownChars a.name) ++
    p.middle ++ String.ofList (valueChars a) ++ p.tail := by
  simp [text, String.ofList_append, String.append_assoc]

end Phrase

/-- What the voice is told about an attribute. -/
def sentence (a : Attribute) : String :=
  let name := String.ofList (shownChars a.name)
  let value := String.ofList (valueChars a)
  match ({} : Thresholds).level a.value with
  | .high => "Lean into " ++ name ++ ": aim for " ++ value ++ " and make it a clear feature of how you speak."
  | .medium => "Use a moderate level of " ++ name ++ " (" ++ value ++ ")."
  | .low => "Keep " ++ name ++ " understated (target " ++ value ++ ")."

theorem text_attributeFragment? (a : Attribute) :
    (attributeFragment? voiceTemplates {} a).map Fragment.text = some (sentence a) := by
  have all : voiceTemplates.filter (fun e => e.appliesTo a.id) = voiceTemplates := by
    simp [voiceTemplates, Entry.appliesTo]
  have sorted : byPriority voiceTemplates = voiceTemplates :=
    List.mergeSort_of_pairwise (by simp [voiceTemplates])
  rw [attributeFragment?, all, renderFirst?, sorted, voiceTemplates_eq, List.map_findSome?,
    Function.comp_def, Phrase.findSome?_render?, Phrase.findSome?_render?, Phrase.findSome?_render?,
    Phrase.ofList_text, Phrase.ofList_text, Phrase.ofList_text, sentence]
  cases ({} : Thresholds).level a.value <;> rfl

theorem texts_attributeFragments (attributes : List Attribute) :
    (attributeFragments attributes voiceTemplates {}).map Fragment.text = attributes.map sentence := by
  rw [attributeFragments, List.map_filterMap, funext text_attributeFragment?, ← List.filterMap_eq_map]
  rfl

theorem exists_voiceGuidance {c : Context} (plain : voiceCatalogue c = voiceTemplates) :
    ∃ fragments, voiceGuidance c = if voiceAttributes c = [] then .null else
      .obj [("guidance", .ofStrings ((voiceAttributes c).map sentence)),
        ("count", .ofNat (voiceAttributes c).length), ("_fragments", fragments)] := by
  rw [voiceGuidance, plain]
  cases voiceAttributes c with
  | nil => exact ⟨.null, rfl⟩
  | cons a rest =>
      have texts := texts_attributeFragments (a :: rest)
      have count := congrArg List.length texts
      rw [List.length_map, List.length_map] at count
      refine ⟨.arr ((attributeFragments (a :: rest) voiceTemplates {}).map Fragment.toJson), ?_⟩
      rw [if_neg (List.cons_ne_nil a rest), ← texts, ← count]

end Prompt.Transform
