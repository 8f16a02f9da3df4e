import Prompt.Transform.Fields

/-!
Transforms of lists of memories: keeping the most certain one of those that say the same, and sorting
them by category.
-/

namespace Prompt.Transform

def uncategorized : String := "general"

def category (memory : Json) : String := (textField? memory ["category"]).getD uncategorized

/-- Two memories with this in common are about the same thing; one without a key is about nothing else. -/
def memoryIdentity? (memory : Json) : Option String :=
  (textField? memory ["key"]).map fun key =>
    Text.lowercased (category memory) ++ "::" ++ Text.lowercased (Text.trimmed key)

def confidence (memory : Json) : Float := (numberField? memory ["confidence"]).getD 0.0

structure Recollection where
  identity? : Option String
  memory : Json

def Recollection.ofJson (memory : Json) : Recollection := ⟨memoryIdentity? memory, memory⟩

/-- Puts a memory into the place of the kept one of its identity if it is more certain, or at the end if
there is none. -/
def replaceOrAppend (new : Recollection) : List Recollection → List Recollection
  | [] => [new]
  | old :: rest =>
    if old.identity? = new.identity? then
      (if confidence old.memory < confidence new.memory then new else old) :: rest
    else old :: replaceOrAppend new rest

def keepMemory (kept : List Recollection) (new : Recollection) : List Recollection :=
  if new.identity?.isSome then replaceOrAppend new kept else kept ++ [new]

def keepMemories (memories : List Json) : List Json :=
  ((memories.map Recollection.ofJson).foldl keepMemory []).map Recollection.memory

/-- Of memories of one identity the most certain is kept, the first of those, where the first of
them stands. What is no list stays as it is. -/
def dedupeMemories (j : Json) : Json :=
  match j with
  | .arr memories => .arr (keepMemories memories)
  | j => j

def memoryEntry (memory : Json) : Json :=
  match textField? memory ["key"], memory.field? "value" with
  | some key, some value => .obj [("key", .str key), ("value", value)]
  | _, _ => memory

def addToBucket (buckets : Entries (List Json)) (name : String) (value : Json) :
    Entries (List Json) :=
  buckets.insert name ((buckets.get? name).getD [] ++ [value])

def byCategory (memories : List Json) : Entries (List Json) :=
  memories.foldl (fun buckets m => addToBucket buckets (category m) (memoryEntry m)) []

/-- Memories by category and their number; the list stays under `_all`. -/
def groupMemories (j : Json) : Json :=
  .obj [("totalCount", .ofNat j.items.length),
    ("byCategory", .obj ((byCategory j.items).map fun b => (b.1, .arr b.2))),
    ("_all", .arr j.items)]

end Prompt.Transform
