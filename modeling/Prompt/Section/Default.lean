import Prompt.Section.Basic
import Prompt.Transform.Builtin

/-!
The sections of a run that is given no list of its own. Each of them works on an empty set of fragments:
it then has a fallback of its own, or its transform has nothing to say.
-/

namespace Prompt.Section

def calling (id outputKey : String) (source : Source) (transform : Transform.Builtin) :
    Section :=
  { id, outputKey, source, transform := some (.one transform.name) }

def whenData : Condition := .dataExists none

def callerInfo : Section :=
  (calling "caller_info" "caller" (.single "caller") .callerFacts).withPriority 1

def personality : Section :=
  ((calling "personality" "personality" (.single "personality") .personality).onlyWhen
    whenData).withPriority 2

def memories : Section :=
  ((((calling "memories" "memories" (.single "memories") .dedupeMemories).throughAll
    [Transform.Builtin.dedupeMemories.name, Transform.Builtin.groupMemories.name]).onlyWhen
    whenData).withFallback .emptyObject).withPriority 3

def behaviorTargets : Section :=
  (((calling "behavior_targets" "behaviorTargets" (.several ["behaviorTargets", "callerTargets"])
    .mergeTargets).onlyWhen whenData).withFallback .emptyObject).withPriority 4

def callHistory : Section :=
  (((calling "call_history" "callHistory" (.single "recentCalls") .callHistory).onlyWhen
    whenData).withFallback .omitted).withPriority 5

def domainScope : String := "domain"

def domain : Section :=
  ((calling "domain" "domain" (.single "subject.domain") .domainFacts).onlyWhen
    (.hasRelation domainScope)).withPriority 6

def curriculum : Section :=
  ((((calling "curriculum" "curriculum" (.single "curriculum") .moduleProgress).onlyWhen
    whenData).withFallback .omitted).behind [domain.id]).withPriority 7

def learnerGoals : Section :=
  (((calling "learner_goals" "learnerGoals" (.single "goals") .goals).onlyWhen
    whenData).withFallback .omitted).withPriority 8

def identity : Section :=
  ((calling "identity" "identity" (.single "identitySpec") .specFacts).onlyWhen
    (.specResolved "identitySpec")).withPriority 9

def content : Section :=
  ((calling "content" "content" (.single "contentSpec") .specFacts).onlyWhen
    (.specResolved "contentSpec")).withPriority 10

def firstCall : Section :=
  (((calling "first_call" "firstCall" (.single "onboardingSpec") .firstCall).onlyWhen
    .firstOccurrence).behind [callerInfo.id, domain.id]).withPriority 11

def domainWelcome : Section :=
  ((((calling "domain_welcome" "domainWelcome" (.single "subject.domain") .domainWelcome).onlyWhen
    (.firstInScope domainScope)).withFallback .omitted).behind
    [callerInfo.id, domain.id, curriculum.id]).withPriority 12

def sessionPlan : Section :=
  ((calling "session_plan" "sessionPlan" (.single wholeContext) .sessionPlan).behind
    [curriculum.id, callHistory.id, memories.id, learnerGoals.id, firstCall.id]).withPriority 13

def voiceGuidance : Section :=
  ((((calling "voice_guidance" "voiceGuidance"
    (.several ["behaviorTargets", "callerTargets", "personality"]) .voiceGuidance).onlyWhen
    whenData).withFallback .omitted).behind [behaviorTargets.id, personality.id]).withPriority 14

def instructions : Section :=
  (((calling "instructions" "instructions" (.single wholeContext) .instructions).withFallback
    .emptyObject).behind
    [callerInfo.id, identity.id, personality.id, memories.id, voiceGuidance.id,
      firstCall.id]).withPriority 15

def quickStart : Section :=
  ((calling "quick_start" "quickStart" (.single wholeContext) .quickStart).behind
    [callerInfo.id, domain.id, identity.id, content.id, sessionPlan.id, memories.id,
      firstCall.id]).withPriority 16

def defaults : List Section :=
  [callerInfo, personality, memories, behaviorTargets, callHistory, domain, curriculum,
    learnerGoals, identity, content, firstCall, domainWelcome, sessionPlan, voiceGuidance,
    instructions, quickStart]

end Prompt.Section
