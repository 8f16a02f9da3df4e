import Prompt.Json.Writer

/-!
The data of a run: the record of the subject, and fragments by name. Also what the history of a
subject says before any section runs.
-/

namespace Prompt

structure Loaded where
  subject : Json
  fragments : Entries Json := []
  loadTimeMs : Nat := 0

namespace Loaded

/-- Splits the subject off a table of fragments; a missing one is `null`. -/
def ofFragments (fragments : Entries Json) (subjectKey : String) : Loaded :=
  { subject := (fragments.get? subjectKey).getD .null, fragments := fragments.remove subjectKey }

def withFragment (l : Loaded) (name : String) (value : Json) : Loaded :=
  { l with fragments := l.fragments.insert name value }

def fragment? (l : Loaded) (name : String) : Option Json := l.fragments.get? name

def recordCount (l : Loaded) (name : String) : Nat :=
  ((l.fragment? name).map fun j => j.items.length).getD 0

end Loaded

/-! ### Groupings -/

/-- An id that can be used: a string that is not empty, or a number as text. -/
def idText? : Json → Option String
  | .str s => if s = "" then none else some s
  | .num n => some (String.ofList n.write)
  | _ => none

def idField (scope : String) : String := scope ++ "Id"

/-- The id of the grouping of a subject: from its own field, or else from the grouping, or else the
grouping itself where it is a plain string. -/
def groupingId? (subject : Json) (scope : String) : Option String :=
  ((subject.field? (idField scope)).bind idText?).or
    ((((subject.field? scope).bind fun g => g.field? "id").bind idText?).or
      ((subject.field? scope).bind Json.asString?))

def hasGrouping (subject : Json) (relation : String) : Bool :=
  Json.isTruthy? (subject.field? relation) || (groupingId? subject relation).isSome

/-! ### History -/

def isFirstInScope (subject : Json) (history : Option Json) (scope : String) : Bool :=
  match groupingId? subject scope with
  | none => false
  | some id =>
    !((history.map Json.items).getD []).any fun entry =>
      (entry.field? (idField scope)).bind idText? == some id

structure History where
  firstOccurrence : Bool := false
  /-- The scopes, of those that were asked for, in which the grouping of the subject is new. -/
  newScopes : List String := []
  deriving DecidableEq

namespace History

def ofLoaded (l : Loaded) (historySource : String) (scopes : List String) : History :=
  let history := l.fragment? historySource
  { firstOccurrence := !Json.isTruthy? history
    newScopes := scopes.filter (isFirstInScope l.subject history) }

def isFirstIn (h : History) (scope : String) : Bool := h.newScopes.contains scope

end History

end Prompt
