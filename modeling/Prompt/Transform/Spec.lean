import Prompt.Run.Context
import Prompt.Template.Compile
import Prompt.Transform.Fields

/-!
Transforms of records that specify an agent: what they say of themselves, and the plan of a first call.
-/

namespace Prompt.Transform

/-- What a specification says of itself. The whole record stays under `_spec`. -/
def specFacts (j : Json) : Json :=
  if j.isObject then
    let slug := textField? j ["slug", "id"]
    .obj [("name", .ofString? ((textField? j ["name", "title"]).or slug)),
      ("slug", .ofString? slug), ("description", .ofString? (textField? j ["description"])),
      ("version", (j.field? "version").getD .null),
      ("config", ((j.field? "config").filter Json.isObject).getD (.obj [])), ("_spec", j)]
  else .null

def greetingTemplate : String :=
  "Hi\x7b\x7b#if caller.firstName\x7d\x7d \x7b\x7bcaller.firstName\x7d\x7d\x7b\x7b/if\x7d\x7d, " ++
  "welcome\x7b\x7b#if domain.name\x7d\x7d to \x7b\x7bdomain.name\x7d\x7d\x7b\x7b/if\x7d\x7d! " ++
  "This is our first conversation, so let's get to know each other."

def firstCallSteps : List String :=
  ["Introduce yourself and explain what these calls are for.",
    "Ask what the caller hopes to get out of them.",
    "Agree on one goal for the next conversation."]

def setting? (j : Json) (name : String) : Option Json :=
  ((j.field? "config").bind fun c => c.field? name).or (j.field? name)

def firstCall (c : Context) (j : Json) : Json :=
  let template := ((setting? j "greetingTemplate").bind Json.asString?).getD greetingTemplate
  let steps := match ((setting? j "steps").map Json.items).getD [] with
    | [] => firstCallSteps.map Json.str
    | steps => steps
  let data := Json.obj [("caller", (c.output? "caller").getD .null),
    ("domain", (c.output? "domain").getD .null)]
  .obj [("isFirstCall", .bool true), ("greeting", .str (Template.compile template data)),
    ("steps", .arr steps), ("_template", .str template)]

end Prompt.Transform
