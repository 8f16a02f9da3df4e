import Prompt.Transform.Caller
import Prompt.Transform.Curriculum
import Prompt.Transform.Memory
import Prompt.Transform.Plan
import Prompt.Transform.Registry
import Prompt.Transform.Spec
import Prompt.Transform.Target

/-!
The transforms that are always there, under the names by which sections call them.
-/

namespace Prompt.Transform

inductive Builtin where
  | callerFacts
  | personality
  | callHistory
  | goals
  | dedupeMemories
  | groupMemories
  | mergeTargets
  | voiceGuidance
  | domainFacts
  | moduleProgress
  | domainWelcome
  | specFacts
  | firstCall
  | sessionPlan
  | instructions
  | quickStart
  deriving DecidableEq

namespace Builtin

def all : List Builtin :=
  [callerFacts, personality, callHistory, goals, dedupeMemories, groupMemories, mergeTargets,
    voiceGuidance, domainFacts, moduleProgress, domainWelcome, specFacts, firstCall, sessionPlan,
    instructions, quickStart]

def name : Builtin → String
  | callerFacts => "map_caller_info"
  | personality => "map_personality"
  | callHistory => "summarize_call_history"
  | goals => "map_goals"
  | dedupeMemories => "dedupe_memories"
  | groupMemories => "group_memories"
  | mergeTargets => "merge_targets"
  | voiceGuidance => "compute_voice_guidance"
  | domainFacts => "map_domain"
  | moduleProgress => "compute_module_progress"
  | domainWelcome => "compute_domain_welcome"
  | specFacts => "extract_spec"
  | firstCall => "compute_first_call"
  | sessionPlan => "compute_session_plan"
  | instructions => "compute_instructions"
  | quickStart => "compute_quick_start"

def ofName? (name : String) : Option Builtin := all.find? fun b => b.name == name

def run : Builtin → Prompt.Transform
  | callerFacts => fun _ => Transform.callerFacts
  | personality => fun _ => Transform.personality
  | callHistory => fun _ => Transform.callHistory
  | goals => fun _ => Transform.goals
  | dedupeMemories => fun _ => Transform.dedupeMemories
  | groupMemories => fun _ => Transform.groupMemories
  | mergeTargets => fun _ => Transform.mergeTargets
  | voiceGuidance => fun c _ => Transform.voiceGuidance c
  | domainFacts => fun _ => Transform.domainFacts
  | moduleProgress => Transform.moduleProgress
  | domainWelcome => Transform.domainWelcome
  | specFacts => fun _ => Transform.specFacts
  | firstCall => Transform.firstCall
  | sessionPlan => fun _ => Transform.sessionPlan
  | instructions => fun _ => Transform.instructions
  | quickStart => fun _ => Transform.quickStart

end Builtin

end Transform

namespace Registry

open Transform

def ofBuiltins (bindings : List (String × Builtin)) : Registry :=
  Entries.ofList (bindings.map fun b => (b.1, b.2.run))

def builtin : Registry := ofBuiltins (Builtin.all.map fun b => (b.name, b))

end Registry

end Prompt
