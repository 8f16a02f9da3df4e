import Prompt.Decimal.Binary
import Prompt.Decimal.Order
import Prompt.Run.Context
import Prompt.Template.Compile
import Prompt.Transform.Fields

/-!
Transforms of the domain of a subject and of its curriculum: the facts of the domain, the progress
through the modules, and a welcome.
-/

namespace Prompt.Transform

/-- The facts of a domain. A string is taken for its name; a record needs a name or an id. -/
def domainFacts (j : Json) : Json :=
  match j with
  | .str name => .obj [("name", .str name)]
  | .obj es =>
    let name := textField? j ["name", "title"]
    let id := (Entries.get? es "id").getD .null
    if name.isNone && id.isNull then .null
    else .obj [("id", id), ("name", .ofString? name),
      ("description", .ofString? (textField? j ["description"]))]
  | _ => .null

/-! ### Progress -/

inductive ModuleStatus where
  | completed
  | inProgress
  | notStarted
  deriving DecidableEq

namespace ModuleStatus

def name : ModuleStatus → String
  | completed => "completed"
  | inProgress => "in_progress"
  | notStarted => "not_started"

def ofName? (name : String) : Option ModuleStatus :=
  match name with
  | "completed" => some completed
  | "in_progress" => some inProgress
  | "not_started" => some notStarted
  | _ => none

end ModuleStatus

/-- From this mastery on a module without a status is completed. -/
def masteryComplete : Float := 0.8

/-- The status that a progress entry or the module gives, or else what the mastery tells. -/
def moduleStatus (progress module_ : Json) (mastery : Float) : ModuleStatus :=
  let explicit := (textField? progress ["status"]).or (textField? module_ ["status"])
  match explicit.bind ModuleStatus.ofName? with
  | some status => status
  | none =>
    let flagged := match progress.field? "completed" with
      | some (.bool b) => b
      | _ => false
    if flagged || masteryComplete ≤ mastery then .completed
    else if 0.0 < mastery then .inProgress else .notStarted

structure ModuleRow where
  id : String
  name : String
  mastery : Float
  status : ModuleStatus

namespace ModuleRow

def toJson (r : ModuleRow) : Json :=
  .obj [("id", .str r.id), ("name", .str r.name), ("mastery", .ofFloat r.mastery),
    ("status", .str r.status.name)]

def ofJson (progressById : Json) (module_ : Json) : ModuleRow :=
  let id := (textField? module_ ["id"]).getD ""
  let progress := (progressById.field? id).getD .null
  let mastery :=
    ((numberField? progress ["mastery"]).or (numberField? module_ ["mastery"])).getD 0.0
  ⟨id, (textField? module_ ["name", "title"]).getD id, mastery,
    moduleStatus progress module_ mastery⟩

end ModuleRow

def moduleOrder (module_ : Json) : Int :=
  Decimal.rank ((numberField? module_ ["order"]).getD Decimal.greatest)

def orderModules (modules : List Json) : List Json :=
  modules.mergeSort fun a b => moduleOrder a ≤ moduleOrder b

/-- A count as a double. No list is longer than 64 bits can count. -/
def count (n : Nat) : Float := (UInt64.ofNatClamp n).toFloat

/-- The part of a whole in percent. -/
def percent (part whole : Nat) : Nat := Decimal.wholeNumber (count part * 100.0 / count whole)

/-- The modules of a curriculum in order with their status, what is completed, and the first two modules
that are not. -/
def moduleProgress (c : Context) (j : Json) : Json :=
  let modules := orderModules (listField j "modules")
  if modules.isEmpty then .null
  else
    let rows := modules.map (ModuleRow.ofJson ((j.field? "progress").getD .null))
    let completed := (rows.filter fun r => r.status = .completed).length
    let pending := rows.filter fun r => r.status ≠ .completed
    let domain := (c.output? "domain").bind fun d => textField? d ["name"]
    let row (r : Option ModuleRow) : Json := (r.map ModuleRow.toJson).getD .null
    .obj [("domain", .ofString? domain), ("modules", .arr (rows.map ModuleRow.toJson)),
      ("completedCount", .ofNat completed), ("totalCount", .ofNat rows.length),
      ("percentComplete", .ofNat (percent completed rows.length)),
      ("currentModule", row pending[0]?), ("nextModule", row pending[1]?)]

/-! ### Welcome -/

def welcomeTemplate : String :=
  "Welcome\x7b\x7b#if domain.name\x7d\x7d to \x7b\x7bdomain.name\x7d\x7d\x7b\x7b/if\x7d\x7d" ++
  "\x7b\x7b#if caller.firstName\x7d\x7d, \x7b\x7bcaller.firstName\x7d\x7d\x7b\x7b/if\x7d\x7d!" ++
  "\x7b\x7b#if domain.description\x7d\x7d \x7b\x7bdomain.description\x7d\x7d\x7b\x7b/if\x7d\x7d" ++
  "\x7b\x7b#if curriculum.currentModule\x7d\x7d We'll begin with " ++
  "\x7b\x7bcurriculum.currentModule.name\x7d\x7d.\x7b\x7b/if\x7d\x7d"

def domainWelcome (c : Context) (j : Json) : Json :=
  let domain := ((c.output? "domain").filter fun d => !d.isNull).getD (domainFacts j)
  if domain.isNull then .null
  else
    let data := Json.obj [("domain", domain), ("caller", (c.output? "caller").getD .null),
      ("curriculum", (c.output? "curriculum").getD .null)]
    .obj [("domain", (domain.field? "name").getD .null),
      ("message", .str (Template.compile welcomeTemplate data))]

end Prompt.Transform
