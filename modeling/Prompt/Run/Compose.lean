import Prompt.Run.Config
import Prompt.Section.Check
import Prompt.Section.Order

/-!
A run. The sections of a configuration are visited in order; each visit is either active, and then
stores what its transforms make of its input, or skipped, and then stores its fallback if it has one. The
document is put together from what was stored.
-/

namespace Prompt

inductive ComposeError where
  | missingSubject (key : String)
  | invalidConfiguration (report : Section.Report)

def ComposeError.message : ComposeError → String
  | missingSubject key =>
    "no subject record found under '" ++ key ++ "'; cannot compose a document without one"
  | invalidConfiguration report => "invalid section configuration:\n" ++ report.text

structure Composer where
  config : Config
  registry : Registry

namespace Composer

def build (config : Config) (registry : Registry) : Except ComposeError Composer :=
  let report := Section.check config.resolvedSections registry
  if config.validateOnLoad && !report.isValid then .error (.invalidConfiguration report)
  else .ok ⟨config, registry⟩

def order (p : Composer) : List Section := Order.resolve p.config.resolvedSections

end Composer

/-! ### Visits -/

inductive Outcome where
  | active (reason : Reason) (result : ChainResult)
  | skipped (reason : Reason) (stored : Option Json)

namespace Outcome

def reason : Outcome → Reason
  | active reason _ => reason
  | skipped reason _ => reason

def isActive : Outcome → Bool
  | active _ _ => true
  | skipped _ _ => false

def stored? : Outcome → Option Json
  | active _ result => some result.value
  | skipped _ stored => stored

end Outcome

structure Visit where
  step : Section
  outcome : Outcome

def Context.afterVisit (c : Context) (v : Visit) : Context :=
  match v.outcome.stored? with
  | some value => c.store v.step.outputKey value
  | none => c

def Composer.visit (p : Composer) (c : Context) (s : Section) : Visit :=
  let activation := s.activation c p.config.unknownCondition
  ⟨s, if activation.activated then
      .active activation.reason (p.registry.apply c s.transformNames (c.resolveInput s.source))
    else .skipped activation.reason s.fallback.stored?⟩

/-! ### The loop -/

inductive Event where
  | started (sections : Nat)
  | activated (id outputKey : String) (reason : Reason)
  | skipped (id : String) (reason : Reason) (stored : Bool)
  | missing (id transform : String)
  | finished (activated skipped : Nat)
  deriving DecidableEq

structure Progress where
  context : Context
  events : List Event := []
  activated : List String := []
  skipped : List (String × Reason) := []
  visits : List Visit := []

/-- One turn of the loop. An active section first reports the transforms that it lacks. -/
def Composer.step (p : Composer) (r : Progress) (s : Section) : Progress :=
  let v := p.visit r.context s
  match v.outcome with
  | .active reason result => {
      context := r.context.store s.outputKey result.value
      events := r.events ++ result.missing.map (.missing s.id) ++
        [.activated s.id s.outputKey reason]
      activated := r.activated ++ [s.id]
      skipped := r.skipped
      visits := r.visits ++ [v] }
  | .skipped reason stored => {
      context := match stored with
        | some value => r.context.store s.outputKey value
        | none => r.context
      events := r.events ++ [.skipped s.id reason stored.isSome]
      activated := r.activated
      skipped := r.skipped ++ [(s.id, reason)]
      visits := r.visits ++ [v] }

/-- The scopes whose first occurrence sections ask about. -/
def Section.scopes (sections : List Section) : List String :=
  sections.filterMap fun s => match s.condition with
    | .firstInScope scope => some scope
    | _ => none

def Composer.start (p : Composer) (l : Loaded) : Context :=
  { loaded := l
    subjectKey := p.config.subjectKey
    history := .ofLoaded l p.config.historySource (Section.scopes p.config.resolvedSections) }

/-! ### The document -/

def formatVersion : String := "compose/1"

/-- Leaves out the fields of an object whose names begin with a text, unless the text is empty. -/
def withoutPrivate (start : String) (j : Json) : Json :=
  match j with
  | .obj es =>
    if start = "" then .obj es
    else .obj (es.filter fun e => !start.toList.isPrefixOf e.1.toList)
  | j => j

/-- The name that an output gives itself; an empty one does not count. -/
def outputName? (outputs : Entries Json) (key : String) : Option String :=
  ((((outputs.get? key).bind fun j => j.field? "name").bind Json.asString?).filter fun s => s != "")

def summaryLine (outputs : Entries Json) : String :=
  match outputName? outputs "identity", outputName? outputs "content" with
  | some identity, some content => "Identity: " ++ identity ++ " | Content: " ++ content
  | some identity, none => "Identity: " ++ identity
  | none, some content => "Content: " ++ content
  | none, none => "No identity or content spec configured."

/-- Takes the output of a section into a document, unless its key is there already. -/
def keepOutput (outputs : Entries Json) (privateStart : String) (document : Entries Json)
    (s : Section) : Entries Json :=
  if document.contains s.outputKey then document
  else match outputs.get? s.outputKey with
    | some j => document.insert s.outputKey (withoutPrivate privateStart j)
    | none => document

def assemble (sections : List Section) (outputs : Entries Json) (privateStart : String) :
    Entries Json :=
  ((sections.foldl (keepOutput outputs privateStart) []).insert versionKey
    (.str formatVersion)).insert summaryKey (.str (summaryLine outputs))

/-! ### The result of a run -/

structure Composition where
  document : Entries Json
  events : List Event
  activated : List String
  skipped : List (String × Reason)
  sectionCount : Nat
  memoryCount : Nat
  loadTimeMs : Nat
  visits : List Visit

namespace Composition

def skippedToJson (id : String) (reason : Reason) : Json :=
  .obj [("id", .str id), ("reason", reason.toJson), ("message", .str reason.message)]

/-- What is told about a run beside its document. How long it took, in milliseconds, and when it was are
for the caller to say. -/
def metadata (r : Composition) (transformTimeMs : Nat) (composedAt : String) : Json :=
  .obj [("activated", .ofStrings r.activated),
    ("skipped", .arr (r.skipped.map fun s => skippedToJson s.1 s.2)),
    ("loadTimeMs", .ofNat r.loadTimeMs), ("transformTimeMs", .ofNat transformTimeMs),
    ("memoryCount", .ofNat r.memoryCount), ("sectionCount", .ofNat r.sectionCount),
    ("composedAt", .str composedAt)]

def toJson (r : Composition) (transformTimeMs : Nat) (composedAt : String) : Json :=
  .obj [("document", .obj r.document), ("metadata", r.metadata transformTimeMs composedAt)]

end Composition

/-- What an observer is told about a run, and what the caller gets. The subject has to be an object;
without one nothing is told. -/
def Composer.observed (p : Composer) (l : Loaded) :
    List Event × Except ComposeError Composition :=
  if l.subject.isObject then
    let begun : Progress := { context := p.start l, events := [.started p.order.length] }
    let run := p.order.foldl p.step begun
    let events := run.events ++ [.finished run.activated.length run.skipped.length]
    (events, .ok {
      document := assemble p.order run.context.outputs p.config.privateStart
      events
      activated := run.activated
      skipped := run.skipped
      sectionCount := p.order.length
      memoryCount := l.recordCount p.config.memorySource
      loadTimeMs := l.loadTimeMs
      visits := run.visits })
  else ([], .error (.missingSubject p.config.subjectKey))

def Composer.compose (p : Composer) (l : Loaded) : Except ComposeError Composition :=
  (p.observed l).2

end Prompt
