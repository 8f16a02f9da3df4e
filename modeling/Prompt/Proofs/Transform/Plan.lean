import Mathlib.Data.List.Basic
import Prompt.Transform.Plan

/-!
# What plans and rules say

Steps and rules are sentences around texts from anywhere. They begin in words of their own, so that no text
from outside makes one sentence look like another: the first step is that of a first call exactly on a first
call (`head?_steps`), and of the rules one speaks of a first call (`mem_rules_firstCall`) and at most one of
memories (`filter_rules_remembering`).
-/

namespace Prompt.Transform

def letter? (s : String) : Option Char := s.toList.head?

theorem letter?_append {s : String} (filled : s.toList ≠ []) (t : String) :
    letter? (s ++ t) = letter? s := by
  rw [letter?, String.toList_append, List.head?_append_of_ne_nil _ filled]
  rfl

/-! ### Steps -/

def onboardingStep : String := "Follow the first-call onboarding steps."

def steps (all : Json) : List String :=
  openingStep all ++ [focus all ++ "."] ++ recallStep (quotedMemories all) ++
    ["Close by agreeing on a next step."]

theorem field?_sessionPlan_steps (all : Json) :
    (sessionPlan all).field? "steps" = some (.ofStrings (steps all)) := rfl

theorem letter?_focus (all : Json) : letter? (focus all ++ ".") ∈ [some 'C', some 'W', some 'O'] := by
  unfold focus
  split
  · rw [String.append_assoc, String.append_assoc, letter?_append (by decide)]
    decide
  · rw [String.append_assoc, letter?_append (by decide)]
    decide
  · decide

theorem head?_steps (all : Json) :
    (steps all).head? = some onboardingStep ↔ isFirstCall all = true := by
  have other {s : String} (letter : letter? s ∈ [some 'B', some 'C', some 'W', some 'O']) :
      s ≠ onboardingStep := by
    rintro rfl
    exact absurd letter (by decide)
  unfold steps openingStep
  cases first : isFirstCall all with
  | true => simp [onboardingStep]
  | false =>
      cases textAt? all "callHistory.recent.0.summary" with
      | none => simpa using other (List.mem_cons_of_mem _ (letter?_focus all))
      | some summary =>
          have letter : letter? ("Briefly recap the last call: " ++ summary) = some 'B' :=
            letter?_append (by decide) summary
          simpa using other (by simp [letter])

/-! ### Rules -/

def firstCallRule : String := "This is the caller's first call: open with the onboarding greeting."

def rules (all : Json) : List String :=
  rule (textAt? all "caller.firstName") "Address the caller as " "." ++
    rule (textAt? all "identity.name") "Stay in character as " "." ++
    rule (textAt? all "personality.summary") "Caller personality: " "" ++
    memoryRule (countAt all "memories.totalCount") ++
    ruleIf (countAt all "voiceGuidance.count" != 0) "Follow the voice guidance." ++
    ruleIf (isFirstCall all) firstCallRule ++
    rule (textAt? all "domain.name") "Keep the conversation within " "." ++
    ["Keep responses short and conversational."]

theorem field?_instructions_rules (all : Json) :
    (instructions all).field? "rules" = some (.ofStrings (rules all)) := rfl

section Letters
variable {letter : Char}

theorem filter_rule {start : String} (filled : start.toList ≠ []) (text : Option String)
    (ending : String) : (rule text start ending).filter (fun r => letter? r = some letter) =
      if letter? start = some letter then rule text start ending else [] := by
  cases text with
  | none => simp [rule]
  | some t =>
      have own : letter? (start ++ t ++ ending) = letter? start := by
        rw [String.append_assoc, letter?_append filled]
      simp [rule, own, List.filter_cons]

theorem filter_ruleIf (holds : Bool) (text : String) :
    (ruleIf holds text).filter (fun r => letter? r = some letter) =
      if letter? text = some letter then ruleIf holds text else [] := by
  cases holds <;> simp [ruleIf, List.filter_cons]

theorem filter_memoryRule (count : Nat) :
    (memoryRule count).filter (fun r => letter? r = some letter) =
      if 'Y' = letter then memoryRule count else [] := by
  unfold memoryRule
  split
  · simp
  · have own (t : String) : letter? ("You remember " ++ t) = some 'Y' := letter?_append (by decide) t
    simp only [String.append_assoc, List.filter_cons, List.filter_nil, own, Option.some.injEq,
      decide_eq_true_eq]

end Letters

theorem filter_rules_firstCall (all : Json) :
    (rules all).filter (fun r => letter? r = some 'T') = ruleIf (isFirstCall all) firstCallRule := by
  simp (disch := decide) only [rules, List.filter_append, filter_rule, filter_ruleIf, filter_memoryRule]
  simp +decide

theorem filter_rules_memories (all : Json) :
    (rules all).filter (fun r => letter? r = some 'Y') =
      memoryRule (countAt all "memories.totalCount") := by
  simp (disch := decide) only [rules, List.filter_append, filter_rule, filter_ruleIf, filter_memoryRule]
  simp +decide

theorem mem_rules_firstCall (all : Json) : firstCallRule ∈ rules all ↔ isFirstCall all = true := by
  have own : letter? firstCallRule = some 'T' := by decide
  have sorted : firstCallRule ∈ rules all ↔
      firstCallRule ∈ (rules all).filter fun r => letter? r = some 'T' := by simp [own]
  rw [sorted, filter_rules_firstCall]
  cases isFirstCall all <;> simp [ruleIf]

def opensWith (start s : String) : Bool := start.toList.isPrefixOf s.toList

theorem letter?_of_opensWith {start s : String} (filled : start.toList ≠ [])
    (opens : opensWith start s = true) : letter? s = letter? start := by
  obtain ⟨rest, spelled⟩ := List.isPrefixOf_iff_prefix.mp opens
  rw [letter?, ← spelled, List.head?_append_of_ne_nil _ filled]
  rfl

theorem filter_rules_remembering (all : Json) : (rules all).filter (opensWith "You remember ") =
    memoryRule (countAt all "memories.totalCount") := by
  have sorted : (rules all).filter (opensWith "You remember ") =
      ((rules all).filter fun r => letter? r = some 'Y').filter (opensWith "You remember ") := by
    rw [List.filter_filter]
    refine List.filter_congr fun r _ => ?_
    cases opens : opensWith "You remember " r with
    | false => rfl
    | true =>
        rw [letter?_of_opensWith (by decide) opens]
        decide
  have kept (count : Nat) : (memoryRule count).filter (opensWith "You remember ") = memoryRule count := by
    unfold memoryRule opensWith
    split
    · rfl
    · simp [String.toList_append]
  rw [sorted, filter_rules_memories, kept]

end Prompt.Transform
