import Prompt.Json.Display
import Prompt.Run.Context
import Prompt.Template.Catalogue
import Prompt.Transform.Fields

/-!
Transforms of the record of the subject and of what is attached to it: facts about the caller, traits
of personality, the history of calls, and goals.
-/

namespace Prompt.Transform

def copied (j : Json) (name as : String) : Entries Json :=
  ((textField? j [name]).map fun s => (as, Json.str s)).toList

def plainId (j : Json) : Entries Json :=
  match j.field? "id" with
  | some (.str s) => [("id", .str s)]
  | some (.num n) => [("id", .num n)]
  | _ => []

def nameFacts (j : Json) : Entries Json :=
  match textField? j ["name", "displayName"] with
  | none => []
  | some name =>
    ("name", .str name) ::
      ((Text.firstWord? name.toList).map fun w => ("firstName", Json.str (String.ofList w))).toList

def domainName? (j : Json) : Option String :=
  (j.field? "domain").bind fun d => (textField? d ["name"]).or d.asString?

/-- The facts about a caller that a prompt needs. The whole record stays under `_record`. -/
def callerFacts (j : Json) : Json :=
  .obj (plainId j ++ nameFacts j ++ copied j "locale" "locale" ++ copied j "timezone" "timezone" ++
    copied j "createdAt" "memberSince" ++
    ((domainName? j).map fun d => ("domain", Json.str d)).toList ++ [("_record", j)])

/-! ### Personality -/

def scores (es : Entries Json) : List (String × Float) :=
  es.filterMap fun e => e.2.asFloat?.map fun x => (e.1, x)

/-- A first letter of ASCII becomes a capital. -/
def capitalize (s : List Char) : List Char :=
  match s with
  | c :: rest => if c.toNat < 0x80 then c.toUpper :: rest else s
  | [] => []

def profileSummary (levels : List (Template.Level × String)) : String :=
  let notable := levels.filter fun e => e.1 != .medium
  if notable.isEmpty then "Balanced profile with no strongly marked traits."
  else
    let text := ", ".intercalate (notable.map fun e => e.1.name ++ " " ++ Text.lowercased e.2)
    String.ofList (capitalize text.toList) ++ "."

/-- Scores as traits with levels, and a line on those that stand out. The scores stand under `traits`
or are the input itself; without any table the result is `null`. -/
def personality (j : Json) : Json :=
  match ((j.field? "traits").getD j).asEntries? with
  | none => .null
  | some es =>
    let rows := (scores es).map fun e => (e.1, humanize e.1, e.2, (({} : Template.Thresholds).level e.2))
    .obj [("traits", .arr (rows.map fun (id, name, score, level) =>
        .obj [("id", .str id), ("name", .str name), ("score", .ofFloat score),
          ("level", .str level.name)])),
      ("summary", .str (profileSummary (rows.map fun (_, name, _, level) => (level, name)))),
      ("_scores", .obj (rows.map fun (id, _, score, _) => (id, .ofFloat score)))]

/-! ### Calls -/

def recentLimit : Nat := 3

def callTime? (call : Json) : Option String := textField? call ["startedAt", "createdAt"]

def newestFirst (calls : List Json) : List Json :=
  calls.mergeSort fun a b => decide ((callTime? b).getD "" ≤ (callTime? a).getD "")

def callHistory (j : Json) : Json :=
  match newestFirst j.items with
  | [] => .null
  | calls@(latest :: _) =>
    let seconds := (calls.filterMap fun c => numberField? c ["durationSeconds"]).foldl (· + ·) 0.0
    .obj [("totalCalls", .ofNat calls.length),
      ("totalMinutes", .ofNat (Decimal.wholeNumber (seconds / 60.0))),
      ("lastCallAt", .ofString? (callTime? latest)),
      ("recent", .arr ((calls.take recentLimit).map fun c =>
        .obj [("when", .ofString? (callTime? c)),
          ("summary", .str ((textField? c ["summary"]).getD "No summary recorded."))]))]

/-! ### Goals -/

structure Goal where
  name : String
  status : String
  progress : Option Float

/-- A goal is a name, or a record with a name. -/
def Goal.ofJson? (j : Json) : Option Goal :=
  match j with
  | .str name => some ⟨name, "active", none⟩
  | j => (textField? j ["name", "title"]).map fun name =>
      ⟨name, (textField? j ["status"]).getD "active", numberField? j ["progress"]⟩

def Goal.isDone (g : Goal) : Bool := g.status == "completed" || g.status == "done"

def goals (j : Json) : Json :=
  let all := j.items.filterMap Goal.ofJson?
  let done := all.filter Goal.isDone
  let active := all.filter fun g => !g.isDone
  if all.isEmpty then .null
  else
    .obj [("active", .arr (active.map fun g =>
        .obj [("name", .str g.name), ("progress", (g.progress.map Json.ofFloat).getD .null)])),
      ("completed", .ofStrings (done.map Goal.name)),
      ("count", .ofNat (active.length + done.length))]

end Prompt.Transform
