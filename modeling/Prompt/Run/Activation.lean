import Prompt.Json.Decode
import Prompt.Run.Context

/-!
Whether a section is active, and why. The decision looks only at the section itself and at what was
loaded, not at the outputs of other sections.
-/

namespace Prompt

inductive UnknownPolicy where
  | failClosed
  | failOpen
  deriving DecidableEq

namespace UnknownPolicy

def name : UnknownPolicy → String
  | failClosed => "failClosed"
  | failOpen => "failOpen"

def ofJson : Json.Decoder UnknownPolicy := fun j =>
  (Json.Decoder.variant ["failClosed", "failOpen"] j).map fun n =>
    if n = "failOpen" then failOpen else failClosed

end UnknownPolicy

inductive Reason where
  | always
  | dataFound (sources : List String)
  | dataMissing (sources : List String)
  | specResolved (name : String)
  | noSpec (key : String)
  | relationPresent (relation name : String)
  | relationAbsent (relation : String)
  | firstOccurrence
  | notFirstOccurrence
  | firstInScope (scope : String)
  | notFirstInScope (scope : String)
  | unrecognized (tag : String) (activated : Bool)
  deriving DecidableEq

namespace Reason

def message : Reason → String
  | always => "always active"
  | dataFound sources => "data found: " ++ ", ".intercalate sources
  | dataMissing sources => "no data in: " ++ ", ".intercalate sources
  | specResolved name => "spec resolved: " ++ name
  | noSpec key => "no spec resolved for " ++ key ++ ": none"
  | relationPresent relation name => relation ++ " assigned: " ++ name
  | relationAbsent relation => "no " ++ relation ++ " assigned"
  | firstOccurrence => "first occurrence"
  | notFirstOccurrence => "not the first occurrence"
  | firstInScope scope => "first occurrence in this " ++ scope
  | notFirstInScope scope => "not the first occurrence in this " ++ scope
  | unrecognized tag true => "unrecognized condition '" ++ tag ++ "', activated (fail-open)"
  | unrecognized tag false => "unrecognized condition '" ++ tag ++ "', skipped (fail-closed)"

def isActive : Reason → Bool
  | always | dataFound _ | specResolved _ | relationPresent _ _ | firstOccurrence
  | firstInScope _ => true
  | dataMissing _ | noSpec _ | relationAbsent _ | notFirstOccurrence | notFirstInScope _ => false
  | unrecognized _ activated => activated

/-! ### As JSON: the kind of the reason, and what it speaks of as detail -/

def kind : Reason → String
  | always => "always"
  | dataFound _ => "dataFound"
  | dataMissing _ => "dataMissing"
  | specResolved _ => "specResolved"
  | noSpec _ => "noSpec"
  | relationPresent _ _ => "relationPresent"
  | relationAbsent _ => "relationAbsent"
  | firstOccurrence => "firstOccurrence"
  | notFirstOccurrence => "notFirstOccurrence"
  | firstInScope _ => "firstInScope"
  | notFirstInScope _ => "notFirstInScope"
  | unrecognized _ _ => "unrecognized"

def kinds : List String :=
  [always, dataFound [], dataMissing [], specResolved "", noSpec "", relationPresent "" "",
    relationAbsent "", firstOccurrence, notFirstOccurrence, firstInScope "", notFirstInScope "",
    unrecognized "" false].map kind

def detail? : Reason → Option Json
  | always | firstOccurrence | notFirstOccurrence => none
  | dataFound sources | dataMissing sources => some (.ofStrings sources)
  | specResolved text | noSpec text | relationAbsent text | firstInScope text
  | notFirstInScope text => some (.str text)
  | relationPresent relation name => some (.obj [("relation", .str relation), ("name", .str name)])
  | unrecognized tag activated => some (.obj [("tag", .str tag), ("activated", .bool activated)])

def toJson (r : Reason) : Json :=
  .obj ([("kind", .str r.kind)] ++ (r.detail?.map fun d => ("detail", d)).toList)

private def typeName : String := "ActivationReason"

/-- A detail that is a record; it has to be written as an object. -/
private def recordDetail (kindName : String) (fields : List Json.Field) :
    Json.Decoder (Entries Json)
  | .obj es => Json.readRecord typeName fields (.obj es)
  | j => .error (.invalidType j ("struct variant " ++ typeName ++ "::" ++ kindName))

private def noDetail (kindName : String) (r : Reason) : Json.Decoder Reason
  | .null => .ok r
  | j => .error (.invalidType j ("unit variant " ++ typeName ++ "::" ++ kindName))

def ofDetail (kind : String) : Json.Decoder Reason := fun j =>
  match kind with
  | "always" => noDetail "Always" always j
  | "dataFound" => (Json.Decoder.list .string j).map dataFound
  | "dataMissing" => (Json.Decoder.list .string j).map dataMissing
  | "specResolved" => (Json.Decoder.string j).map specResolved
  | "noSpec" => (Json.Decoder.string j).map noSpec
  | "relationPresent" => do
    let es ← recordDetail "RelationPresent"
      [.mandatory "relation" .string, .mandatory "name" .string] j
    return relationPresent (← Json.need es "relation" .string) (← Json.need es "name" .string)
  | "relationAbsent" => (Json.Decoder.string j).map relationAbsent
  | "firstOccurrence" => noDetail "FirstOccurrence" firstOccurrence j
  | "notFirstOccurrence" => noDetail "NotFirstOccurrence" notFirstOccurrence j
  | "firstInScope" => (Json.Decoder.string j).map firstInScope
  | "notFirstInScope" => (Json.Decoder.string j).map notFirstInScope
  | _ => do
    let es ← recordDetail "Unrecognized"
      [.mandatory "tag" .string, .mandatory "activated" .bool] j
    return unrecognized (← Json.need es "tag" .string) (← Json.need es "activated" .bool)

def ofKindAlone (kind : String) : Except Json.DecodeError Reason :=
  match kind with
  | "always" => .ok always
  | "firstOccurrence" => .ok firstOccurrence
  | "notFirstOccurrence" => .ok notFirstOccurrence
  | _ => .error (.missingField "detail")

private def expected : String := "adjacently tagged enum " ++ typeName

/-- A reason is an object of kind and detail, or the array of the two, in which the kind has to be a
string. -/
def ofJson : Json.Decoder Reason
  | .obj es =>
    match Entries.get? es "kind" with
    | none => .error (.missingField "kind")
    | some k => do
      let kind ← Json.Decoder.variant kinds k
      match Entries.get? es "detail" with
      | some d => ofDetail kind d
      | none => ofKindAlone kind
  | .arr [] => .error (.invalidLength 0 expected)
  | .arr (k :: rest) => do
    let kind ← Json.Decoder.identifier kinds k
    match rest with
    | [] => .error (.invalidLength 1 expected)
    | d :: more =>
      let r ← ofDetail kind d
      if more.isEmpty then .ok r
      else .error (.invalidLength (more.length + 2) "fewer elements in array")
  | j => .error (.invalidType j expected)

end Reason

/-! ### The decision -/

structure Activation where
  activated : Bool
  reason : Reason
  deriving DecidableEq

def Activation.toJson (a : Activation) : Json :=
  .obj [("activated", .bool a.activated), ("reason", a.reason.toJson)]

def specName (key : String) (spec : Json) : String :=
  (((spec.field? "name").or (spec.field? "slug")).bind Json.asString?).getD key

/-- How the grouping of a subject is called: by the name of the grouping, by the grouping itself where it
is a string, by its id, or by the relation. -/
def relationName (subject : Json) (relation : String) : String :=
  let related := subject.field? relation
  (((related.bind fun r => r.field? "name").bind Json.asString?).or
    ((related.bind Json.asString?).or (groupingId? subject relation))).getD relation

def Section.activation (s : Section) (c : Context) (policy : UnknownPolicy) : Activation :=
  match s.condition with
  | .always => ⟨true, .always⟩
  | .dataExists sources =>
    let names := sources.getD s.source.names
    let found := names.filter c.hasData
    if found.isEmpty then ⟨false, .dataMissing (names.filter fun n => !c.hasData n)⟩
    else ⟨true, .dataFound found⟩
  | .specResolved key =>
    match c.source? key with
    | some spec => ⟨true, .specResolved (specName key spec)⟩
    | none => ⟨false, .noSpec key⟩
  | .hasRelation relation =>
    if hasGrouping c.subject relation then
      ⟨true, .relationPresent relation (relationName c.subject relation)⟩
    else ⟨false, .relationAbsent relation⟩
  | .firstOccurrence =>
    if c.history.firstOccurrence then ⟨true, .firstOccurrence⟩ else ⟨false, .notFirstOccurrence⟩
  | .firstInScope scope =>
    if c.history.isFirstIn scope then ⟨true, .firstInScope scope⟩
    else ⟨false, .notFirstInScope scope⟩
  | .custom tag =>
    let activated := policy = .failOpen
    ⟨activated, .unrecognized tag activated⟩

theorem Section.isActive_activation (s : Section) (c : Context) (policy : UnknownPolicy) :
    (s.activation c policy).reason.isActive = (s.activation c policy).activated := by
  unfold Section.activation
  dsimp only
  repeat' split
  all_goals rfl

end Prompt
