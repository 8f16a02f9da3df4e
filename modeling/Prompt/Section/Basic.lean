import Prompt.Json.Basic

/-!
Sections, the steps of a composition. A section names its input, when it is active, how its input
becomes output, what is stored when it is not active, and which sections go first.
-/

namespace Prompt

def wholeContext : String := "_all"

inductive Source where
  | single (name : String)
  | several (names : List String)
  deriving DecidableEq

namespace Source

def names : Source → List String
  | single name => [name]
  | several names => names

def isWhole (s : Source) : Bool := s.names.any fun n => n == wholeContext

end Source

/-- One transform or a chain of them, applied from left to right. -/
inductive Chain where
  | one (name : String)
  | many (names : List String)
  deriving DecidableEq

def Chain.names : Chain → List String
  | one name => [name]
  | many names => names

inductive Condition where
  | always
  /-- Some source has data; without a list these are the sources of the section. -/
  | dataExists (sources : Option (List String))
  | specResolved (spec : String)
  | hasRelation (relation : String)
  | firstOccurrence
  | firstInScope (scope : String)
  | custom (tag : String)
  deriving DecidableEq

namespace Condition

def tag : Condition → String
  | always => "always"
  | dataExists _ => "dataExists"
  | specResolved _ => "specResolved"
  | hasRelation _ => "entityHasRelation"
  | firstOccurrence => "isFirstOccurrence"
  | firstInScope _ => "isFirstOccurrenceInScope"
  | custom tag => tag

/-- The parameter that the condition needs and that is empty. -/
def missingParameter? : Condition → Option String
  | specResolved spec => if spec = "" then some "spec" else none
  | hasRelation relation => if relation = "" then some "relation" else none
  | firstInScope scope => if scope = "" then some "scope" else none
  | dataExists (some []) => some "sources"
  | _ => none

end Condition

inductive FallbackAction where
  | null
  | emptyObject
  | leaveOut
  /-- The same as `leaveOut`. -/
  | skip
  deriving DecidableEq

def FallbackAction.omitsKey : FallbackAction → Bool
  | leaveOut => true
  | skip => true
  | null => false
  | emptyObject => false

structure Fallback where
  action : FallbackAction := .null
  value : Option Json := none

namespace Fallback

def nothing : Fallback := {}

def emptyObject : Fallback := { action := .emptyObject }

def withValue (value : Json) : Fallback := { action := .emptyObject, value := some value }

def omitted : Fallback := { action := .leaveOut }

def stored? (f : Fallback) : Option Json :=
  match f.action with
  | .null => some .null
  | .emptyObject => some (f.value.getD (.obj []))
  | .leaveOut | .skip => none

theorem isSome_stored? (f : Fallback) : f.stored?.isSome = !f.action.omitsKey := by
  unfold stored? FallbackAction.omitsKey
  cases f.action <;> rfl

end Fallback

structure Section where
  id : String
  outputKey : String
  source : Source
  condition : Condition := .always
  fallback : Fallback := {}
  transform : Option Chain := none
  dependsOn : List String := []
  /-- A hint for authors; it does not affect the order of a run. -/
  priority : Int := 0

namespace Section

def transformNames (s : Section) : List String := (s.transform.map Chain.names).getD []

def onlyWhen (s : Section) (condition : Condition) : Section := { s with condition }

def withFallback (s : Section) (fallback : Fallback) : Section := { s with fallback }

def through (s : Section) (name : String) : Section := { s with transform := some (.one name) }

def throughAll (s : Section) (names : List String) : Section :=
  { s with transform := some (.many names) }

def behind (s : Section) (ids : List String) : Section :=
  { s with dependsOn := s.dependsOn ++ ids }

def withPriority (s : Section) (priority : Int) : Section := { s with priority }

end Section

end Prompt
