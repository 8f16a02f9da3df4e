import Prompt.Text.Measure

/-!
The arguments of the program: one command with its operands and options. An option's value follows it, as
the next argument or after an equals sign. `--` ends the options.
-/

namespace Prompt.CommandLine

inductive Format where
  | json
  | markdown
  deriving DecidableEq

def Format.ofName? (name : String) : Option Format :=
  if name = "json" then some .json else if name = "markdown" then some .markdown else none

inductive TemplateSource where
  | text (template : String)
  | file (path : String)
  deriving DecidableEq

inductive Command where
  | run (fragments : String) (config sections : Option String) (format : Format)
  | render (template : TemplateSource) (data : Option String) (strict : Bool)
  | validate (sections : Option String)
  | schema
  deriving DecidableEq

inductive Refusal where
  | usage
  | help
  | version
  deriving DecidableEq

inductive Wanted where
  | nothing
  | text
  | path
  | format
  | number
  deriving DecidableEq

def Wanted.accepts : Wanted → String → Bool
  | nothing, _ => false
  | text, _ => true
  | path, value => value != ""
  | format, value => (Format.ofName? value).isSome
  | number, value => (Text.readPosition? value.toList).isSome

/-- The options of a command and the number of its operands, which are paths. -/
structure Signature where
  options : List (String × Wanted)
  operands : Nat

namespace Signature

/-- The signature of a command. Fragments are read at once, so a limit for it is checked and has no
further use. -/
def of? (command : String) : Option Signature :=
  match command with
  | "run" => some ⟨[("config", .path), ("sections", .path), ("format", .format),
      ("fragment-timeout-ms", .number)], 1⟩
  | "render" => some ⟨[("template", .text), ("file", .path), ("data", .path),
      ("strict", .nothing)], 0⟩
  | "validate" => some ⟨[("sections", .path)], 0⟩
  | "schema" => some ⟨[], 0⟩
  | _ => none

def wanted? (s : Signature) (option : String) : Option Wanted :=
  (s.options.find? fun o => o.1 == option).map Prod.snd

end Signature

/-- The operands and options that were read, last first. -/
structure Given where
  operands : List String := []
  options : List (String × String) := []

namespace Given

def option? (g : Given) (name : String) : Option String :=
  (g.options.find? fun o => o.1 == name).map Prod.snd

/-- An option may be given once. -/
def withOption (g : Given) (name value : String) : Except Refusal Given :=
  if (g.option? name).isSome then .error .usage
  else .ok { g with options := (name, value) :: g.options }

def withOperand (s : Signature) (g : Given) (value : String) : Except Refusal Given :=
  if g.operands.length < s.operands ∧ value ≠ "" then
    .ok { g with operands := value :: g.operands }
  else .error .usage

end Given

/-- The letters of a short option: any number of `v`, which ask for more logging, until `h` asks for help
or, where that is allowed, `V` for the version. -/
def readLetters (hasVersion : Bool) : List Char → Except Refusal Unit
  | [] => .ok ()
  | 'v' :: rest => readLetters hasVersion rest
  | 'h' :: _ => .error .help
  | 'V' :: _ => .error (if hasVersion then .version else .usage)
  | _ :: _ => .error .usage

def splitLong (body : List Char) : String × Option String :=
  let name := String.ofList (body.takeWhile fun c => c != '=')
  match body.dropWhile fun c => c != '=' with
  | [] => (name, none)
  | _ :: value => (name, some (String.ofList value))

inductive Token where
  | operand (value : String)
  | letters (letters : List Char)
  | long (name : String) (value : Option String)
  | endOfOptions
  deriving DecidableEq

def Token.of (argument : String) : Token :=
  match argument.toList with
  | ['-'] => .operand argument
  | ['-', '-'] => .endOfOptions
  | '-' :: '-' :: body => .long (splitLong body).1 (splitLong body).2
  | '-' :: body => .letters body
  | _ => .operand argument

def readCommon (hasVersion : Bool) (name : String) (value : Option String) : Except Refusal Unit :=
  match name, value with
  | "verbose", none => .ok ()
  | "help", none => .error .help
  | "version", none => .error (if hasVersion then .version else .usage)
  | _, _ => .error .usage

def readGiven (s : Signature) (g : Given) : List String → Except Refusal Given
  | [] => .ok g
  | argument :: rest =>
    match Token.of argument with
    | .operand value => do readGiven s (← Given.withOperand s g value) rest
    | .letters letters => do
      readLetters false letters
      readGiven s g rest
    | .endOfOptions => rest.foldlM (Given.withOperand s) g
    | .long name value =>
      match s.wanted? name, value, rest with
      | none, value, rest => do
        readCommon false name value
        readGiven s g rest
      | some .nothing, none, rest => do readGiven s (← g.withOption name "") rest
      | some .nothing, some _, _ => .error .usage
      | some wanted, some value, rest =>
        if wanted.accepts value then do readGiven s (← g.withOption name value) rest
        else .error .usage
      | some _, none, [] => .error .usage
      | some wanted, none, next :: rest =>
        match Token.of next with
        | .operand value =>
          if wanted.accepts value then do readGiven s (← g.withOption name value) rest
          else .error .usage
        | _ => .error .usage

def Command.of (name : String) (g : Given) : Except Refusal Command :=
  match name, g.operands with
  | "run", [fragments] =>
    .ok (.run fragments (g.option? "config") (g.option? "sections")
      (((g.option? "format").bind Format.ofName?).getD .json))
  | "render", [] =>
    let render := fun source => Command.render source (g.option? "data") (g.option? "strict").isSome
    match g.option? "template", g.option? "file" with
    | some template, none => .ok (render (.text template))
    | none, some path => .ok (render (.file path))
    | _, _ => .error .usage
  | "validate", [] => .ok (.validate (g.option? "sections"))
  | "schema", [] => .ok .schema
  | _, _ => .error .usage

/-- Help may be asked for on the whole or on one command, `help` included. -/
def isHelpTopic : List String → Bool
  | [] => true
  | [topic] => topic = "help" || (Signature.of? topic).isSome
  | _ => false

/-- Reads all arguments: first the options that stand before the name of the command. -/
def Command.parse : List String → Except Refusal Command
  | [] => .error .usage
  | argument :: rest =>
    match Token.of argument with
    | .endOfOptions => .error .usage
    | .letters letters => do
      readLetters true letters
      Command.parse rest
    | .long name value => do
      readCommon true name value
      Command.parse rest
    | .operand name =>
      match Signature.of? name with
      | some s => do Command.of name (← readGiven s {} rest)
      | none => .error (if name = "help" ∧ isHelpTopic rest then .help else .usage)

end Prompt.CommandLine
