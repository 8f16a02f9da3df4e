import Prompt.Template.Compile
import Prompt.Transform.Fields

/-!
Transforms of the whole context, which combine what earlier sections put out: the plan of a session,
the rules for the agent, and a summary at a glance.
-/

namespace Prompt.Transform

def textAt? (all : Json) (path : String) : Option String :=
  ((all.resolve? path.toList).bind Json.asString?).filter fun s => s != ""

/-- The whole number at the end of a path; anything else counts as zero. -/
def countAt (all : Json) (path : String) : Nat :=
  match all.resolve? path.toList with
  | some (.num (.int n)) => n.toNat
  | _ => 0

def isFirstCall (all : Json) : Bool := Json.isTruthy? (all.field? "firstCall")

/-! ### The plan of a session -/

def quotationLimit : Nat := 3

def focus (all : Json) : String :=
  match textAt? all "curriculum.currentModule.name", textAt? all "learnerGoals.active.0.name" with
  | some name, _ => "Continue the " ++ name ++ " module"
  | none, some goal => "Work towards: " ++ goal
  | none, none => "Open conversation"

def quotation? (memory : Json) : Option String := do
  let key ← textField? memory ["key"]
  let value ← (memory.field? "value").bind Json.asString?
  return key ++ ": " ++ value

def quotedMemories (all : Json) : List String :=
  ((((all.resolve? "memories._all".toList).map Json.items).getD []).filterMap quotation?).take
    quotationLimit

def openingStep (all : Json) : List String :=
  if isFirstCall all then ["Follow the first-call onboarding steps."]
  else match textAt? all "callHistory.recent.0.summary" with
    | some summary => ["Briefly recap the last call: " ++ summary]
    | none => []

def recallStep (recalled : List String) : List String :=
  if recalled.isEmpty then [] else ["Weave in something you remember about the caller."]

def sessionPlan (all : Json) : Json :=
  let recalled := quotedMemories all
  let steps := openingStep all ++ [focus all ++ "."] ++ recallStep recalled ++
    ["Close by agreeing on a next step."]
  .obj [("focus", .str (focus all)),
    ("lastCallSummary", .ofString? (textAt? all "callHistory.recent.0.summary")),
    ("recall", .ofStrings recalled), ("steps", .ofStrings steps)]

/-! ### Rules -/

def rule (text : Option String) (start ending : String) : List String :=
  (text.map fun t => start ++ t ++ ending).toList

def memoryRule (count : Nat) : List String :=
  if count = 0 then []
  else ["You remember " ++ toString count ++ " thing(s) about the caller; bring them up naturally" ++
    " and never recite them as a list."]

def ruleIf (holds : Bool) (text : String) : List String := if holds then [text] else []

def instructions (all : Json) : Json :=
  let rules := rule (textAt? all "caller.firstName") "Address the caller as " "." ++
    rule (textAt? all "identity.name") "Stay in character as " "." ++
    rule (textAt? all "personality.summary") "Caller personality: " "" ++
    memoryRule (countAt all "memories.totalCount") ++
    ruleIf (countAt all "voiceGuidance.count" != 0) "Follow the voice guidance." ++
    ruleIf (isFirstCall all)
      "This is the caller's first call: open with the onboarding greeting." ++
    rule (textAt? all "domain.name") "Keep the conversation within " "." ++
    ["Keep responses short and conversational."]
  .obj [("rules", .ofStrings rules), ("count", .ofNat rules.length)]

/-! ### At a glance -/

def headlineTemplate : String :=
  "\x7b\x7b#if caller.name\x7d\x7dCall with \x7b\x7bcaller.name\x7d\x7d\x7b\x7b/if\x7d\x7d" ++
  "\x7b\x7b#unless caller.name\x7d\x7dCall\x7b\x7b/unless\x7d\x7d" ++
  "\x7b\x7b#if domain.name\x7d\x7d about \x7b\x7bdomain.name\x7d\x7d\x7b\x7b/if\x7d\x7d." ++
  "\x7b\x7b#if sessionPlan.focus\x7d\x7d Focus: \x7b\x7bsessionPlan.focus\x7d\x7d.\x7b\x7b/if\x7d\x7d" ++
  "\x7b\x7b#if firstCall\x7d\x7d First call.\x7b\x7b/if\x7d\x7d"

def quickStart (all : Json) : Json :=
  let name (key : String) : Json := .ofString? (textAt? all (key ++ ".name"))
  .obj [("headline", .str (Template.compile headlineTemplate all)), ("callerName", name "caller"),
    ("domain", name "domain"), ("identity", name "identity"), ("content", name "content"),
    ("focus", .ofString? (textAt? all "sessionPlan.focus")),
    ("memoryCount", .ofNat (countAt all "memories.totalCount")),
    ("isFirstCall", .bool (isFirstCall all))]

end Prompt.Transform
