import Prompt.CommandLine.Arguments
import Prompt.CommandLine.Environment
import Prompt.Document.Markdown
import Prompt.Run.Compose
import Prompt.Run.Load
import Prompt.Template.Check
import Prompt.Template.Compile

/-!
What the program does: it carries out a command and says what goes to the standard output, what to the
standard error, and with which code it exits.
-/

namespace Prompt.CommandLine

inductive Failure where
  | unloadable (path : String) (error : Section.LoadError)
  | unreadable (path : String) (fault : ReadFault)
  | invalidJson (path : String) (error : Json.ReadError)
  | notFragments (path : String)
  | uncomposable (error : ComposeError)
  | faultyTemplate (issues : List Template.Issue)
  | faultySections (report : Section.Report)

def Failure.message : Failure → String
  | unloadable path error => "failed to load " ++ path ++ ": " ++ error.message
  | unreadable path fault => "failed to read " ++ path ++ ": " ++ fault.message
  | invalidJson path error => "invalid JSON in " ++ path ++ ": " ++ error.message
  | notFragments path => path ++ " must contain a JSON object of fragments"
  | uncomposable error => error.message
  | faultyTemplate issues =>
    "template has " ++ toString issues.length ++ " issue(s):\n" ++
      "\n".intercalate (issues.map fun i => "  - " ++ i.message)
  | faultySections report => "invalid section configuration:\n" ++ report.text

variable {m : Type → Type} [Monad m]

/-! ### Reading files -/

def readText (env : Environment m) (path : String) : ExceptT Failure m String := do
  match ← env.read path with
  | .ok text => return text
  | .error fault => throw (.unreadable path fault)

def readJson (env : Environment m) (path : String) : ExceptT Failure m Json := do
  match Json.read (← readText env path) with
  | .ok j => return j
  | .error error => throw (.invalidJson path error)

def load {α : Type} (env : Environment m) (decode : String → Except Section.LoadError α)
    (path : String) : ExceptT Failure m α := do
  match (← env.read path).mapError (fun f => Section.LoadError.unreadable f.message) >>= decode with
  | .ok a => return a
  | .error error => throw (.unloadable path error)

/-- The name of the fragment in a file: the file name in front of `.json`, if that is not all of it. -/
def fragmentName? (file : String) : Option String :=
  match Text.after? ['n', 'o', 's', 'j', '.'] file.toList.reverse with
  | none => none
  | some [] => none
  | some rest => some (String.ofList rest.reverse)

/-- Fetches the fragment in a file of a directory; the outcome is never an error of the program. -/
def fetchFile (env : Environment m) (directory file : String) : m Fetched := do
  match ← env.read (joinPath directory file) with
  | .error fault => return .failed fault.message
  | .ok text => match Json.read text with
    | .error error => return .failed error.message
    | .ok j => return .delivered j

/-- Fetches the fragments in the `.json` files of a directory, in order of their names. -/
def fetchDirectory (env : Environment m) (directory : String) (files : List String) :
    m (List (String × Fetched)) :=
  (files.mergeSort fun a b => decide (a ≤ b)).filterMapM fun file => do
    match fragmentName? file with
    | some name => return some (name, ← fetchFile env directory file)
    | none => return none

/-- The fragments at a path: those in a directory, or the members of the object in a file. -/
def fetchFragments (env : Environment m) (path : String) :
    ExceptT Failure m (List (String × Fetched)) := do
  match ← env.entries? path with
  | some files => monadLift (fetchDirectory env path files)
  | none => match ← readJson env path with
    | .obj es => return es.map fun e => (e.1, .delivered e.2)
    | _ => throw (.notFragments path)

/-! ### Carrying out a command -/

def configuration (env : Environment m) (config sections : Option String) :
    ExceptT Failure m Config := do
  let base ← match config with
    | some path => load env Config.read path
    | none => pure {}
  match sections with
  | some path => return { base with sections := some (← load env Section.readList path) }
  | none => return base

def run (env : Environment m) (fragments : String) (config sections : Option String)
    (format : Format) : ExceptT Failure m String := do
  let settings ← configuration env config sections
  let begun ← env.milliseconds
  let fetches ← fetchFragments env fragments
  let loadTimeMs := (← env.milliseconds) - begun
  let loaded := { Loaded.ofFetches fetches settings.subjectKey with loadTimeMs }
  let begun ← env.milliseconds
  match (Composer.build settings .builtin).bind fun p => p.compose loaded with
  | .error error => throw (.uncomposable error)
  | .ok r => match format with
    | .json => return (r.toJson ((← env.milliseconds) - begun) (← env.timestamp)).pretty
    | .markdown => return Markdown.render r.document

def render (env : Environment m) (template : TemplateSource) (data : Option String)
    (strict : Bool) : ExceptT Failure m String := do
  let text ← match template with
    | .text text => pure text
    | .file path => readText env path
  let data ← match data with
    | some path => readJson env path
    | none => pure (.obj [])
  let issues := if strict then Template.check text (some data) else []
  if issues.isEmpty then return Template.compile text data else throw (.faultyTemplate issues)

def validate (env : Environment m) (sections : Option String) : ExceptT Failure m String := do
  let list ← match sections with
    | some path => load env Section.readList path
    | none => pure Section.defaults
  let report := Section.check list .builtin
  if report.isValid then return toString list.length ++ " section(s) OK\n" ++ report.text
  else throw (.faultySections report)

def Command.execute (env : Environment m) : Command → ExceptT Failure m String
  | .run fragments config sections format => CommandLine.run env fragments config sections format
  | .render template data strict => CommandLine.render env template data strict
  | .validate sections => CommandLine.validate env sections
  | .schema => return Section.schemaDocument.pretty

/-! ### The program -/

structure Output where
  exitCode : Nat
  standard : String := ""
  errors : String := ""
  deriving DecidableEq

def usageText : String :=
  "Usage: compose [-v] run <FRAGMENTS> [--config <FILE>] [--sections <FILE>]" ++
    " [--format json|markdown] [--fragment-timeout-ms <N>]\n" ++
    "       compose [-v] render (--template <TEXT> | --file <FILE>) [--data <FILE>] [--strict]\n" ++
    "       compose [-v] validate [--sections <FILE>]\n" ++
    "       compose [-v] schema\n"

def Refusal.output : Refusal → Output
  | .usage => { exitCode := 2, errors := usageText }
  | .help => { exitCode := 0, standard := usageText }
  | .version => { exitCode := 0, standard := "compose 0.1.0\n" }

def program (env : Environment m) (arguments : List String) : m Output :=
  match Command.parse arguments with
  | .error refusal => return refusal.output
  | .ok command => do
    match ← (command.execute env).run with
    | .ok text => return { exitCode := 0, standard := text ++ "\n" }
    | .error failure => return { exitCode := 1, errors := "Error: " ++ failure.message ++ "\n" }

end Prompt.CommandLine
