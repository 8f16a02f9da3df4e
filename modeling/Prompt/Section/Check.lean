import Prompt.Section.Cycle
import Prompt.Transform.Registry

/-!
Checks on a section list before it is run. A run tolerates every list: it leaves out unknown names and
cuts cycles. The checks find such mistakes beforehand.
-/

namespace Prompt

def versionKey : String := "version"

def summaryKey : String := "summary"

namespace Section

inductive Severity where
  | error
  | warning
  deriving DecidableEq

def Severity.name : Severity → String
  | error => "error"
  | warning => "warning"

/-- A mistake in a section list; `id` is the section that it was found in. -/
inductive Issue where
  | duplicateId (id : String)
  | duplicateOutputKey (outputKey : String) (writers : List String)
  | danglingDependency (id dependency : String)
  | cycle (ids : List String)
  | unknownTransform (id transform : String)
  | unrecognizedCondition (id tag : String)
  | missingParameter (id condition parameter : String)
  | reservedOutputKey (id outputKey : String)
  deriving DecidableEq

namespace Issue

def severity : Issue → Severity
  | duplicateOutputKey _ _ | unknownTransform _ _ | unrecognizedCondition _ _ => .warning
  | duplicateId _ | danglingDependency _ _ | cycle _ | missingParameter _ _ _
  | reservedOutputKey _ _ => .error

def message : Issue → String
  | duplicateId id => "section id '" ++ id ++ "' is defined more than once"
  | duplicateOutputKey key writers =>
    "output key '" ++ key ++ "' is written by several sections (" ++ ", ".intercalate writers ++
      "); later values overwrite earlier ones"
  | danglingDependency id dependency =>
    "section '" ++ id ++ "' depends on unknown section '" ++ dependency ++ "'"
  | cycle ids => "dependency cycle among sections: " ++ " -> ".intercalate ids
  | unknownTransform id transform =>
    "section '" ++ id ++ "' uses unregistered transform '" ++ transform ++ "'"
  | unrecognizedCondition id tag =>
    "section '" ++ id ++ "' uses unrecognized activation condition '" ++ tag ++ "'"
  | missingParameter id condition parameter =>
    "section '" ++ id ++ "': condition '" ++ condition ++ "' requires '" ++ parameter ++ "'"
  | reservedOutputKey id key => "section '" ++ id ++ "' uses reserved output key '" ++ key ++ "'"

def toJson : Issue → Json
  | duplicateId id => .obj [("kind", .str "duplicateId"), ("id", .str id)]
  | duplicateOutputKey key writers =>
    .obj [("kind", .str "duplicateOutputKey"), ("outputKey", .str key),
      ("sections", .ofStrings writers)]
  | danglingDependency id dependency =>
    .obj [("kind", .str "danglingDependency"), ("section", .str id),
      ("dependsOn", .str dependency)]
  | cycle ids => .obj [("kind", .str "cycle"), ("sections", .ofStrings ids)]
  | unknownTransform id transform =>
    .obj [("kind", .str "unknownTransform"), ("section", .str id), ("transform", .str transform)]
  | unrecognizedCondition id tag =>
    .obj [("kind", .str "unrecognizedCondition"), ("section", .str id), ("tag", .str tag)]
  | missingParameter id condition parameter =>
    .obj [("kind", .str "missingConditionParameter"), ("section", .str id),
      ("condition", .str condition), ("parameter", .str parameter)]
  | reservedOutputKey id key =>
    .obj [("kind", .str "reservedOutputKey"), ("section", .str id), ("outputKey", .str key)]

end Issue

/-! ### Finding issues -/

/-- One issue for each definition whose id is among `seen` or was defined before it. -/
def repeatedIds (seen : List String) : List Section → List Issue
  | [] => []
  | s :: rest =>
    (if seen.contains s.id then [.duplicateId s.id] else []) ++ repeatedIds (s.id :: seen) rest

def writers (sections : List Section) (key : String) : List String :=
  (sections.filter fun s => s.outputKey == key).map id

def outputKeys (sections : List Section) : List String :=
  (sections.map outputKey).eraseDups

def sharedKeys (sections : List Section) : List Issue :=
  ((outputKeys sections).filter fun k => 1 < (writers sections k).length).map fun k =>
    .duplicateOutputKey k (writers sections k)

def reservedKey (s : Section) : List Issue :=
  if s.outputKey = versionKey ∨ s.outputKey = summaryKey then
    [.reservedOutputKey s.id s.outputKey]
  else []

def danglingNames (sections : List Section) (s : Section) : List Issue :=
  (s.dependsOn.filter fun d => !sections.any fun other => other.id == d).map
    (.danglingDependency s.id)

def unknownTransforms (registry : Registry) (s : Section) : List Issue :=
  (s.transformNames.filter fun n => !registry.contains n).map (.unknownTransform s.id)

def unrecognized (s : Section) : List Issue :=
  match s.condition with
  | .custom tag => [.unrecognizedCondition s.id tag]
  | _ => []

def emptyParameter (s : Section) : List Issue :=
  (s.condition.missingParameter?.map fun p =>
    Issue.missingParameter s.id s.condition.tag p).toList

def issues (sections : List Section) (registry : Registry) (s : Section) : List Issue :=
  reservedKey s ++ danglingNames sections s ++ unknownTransforms registry s ++ unrecognized s ++
    emptyParameter s

def cycles (sections : List Section) : List Issue :=
  match Cycle.members sections with
  | [] => []
  | ids => [.cycle ids]

structure Report where
  issues : List Issue

/-- Checks a list: repeated ids, shared keys, then section by section, and cycles last. -/
def check (sections : List Section) (registry : Registry) : Report :=
  ⟨repeatedIds [] sections ++ sharedKeys sections ++
    sections.flatMap (issues sections registry) ++ cycles sections⟩

namespace Report

def ofSeverity (r : Report) (severity : Severity) : List Issue :=
  r.issues.filter fun i => i.severity == severity

def errors (r : Report) : List Issue := r.ofSeverity .error

def warnings (r : Report) : List Issue := r.ofSeverity .warning

def isValid (r : Report) : Bool := r.errors.isEmpty

def text (r : Report) : String :=
  if r.issues.isEmpty then "  (no issues)"
  else "\n".intercalate (r.issues.map fun i => "  - " ++ i.severity.name ++ ": " ++ i.message)

end Report

end Section

end Prompt
