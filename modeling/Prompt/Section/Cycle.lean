import Prompt.Section.Basic

/-!
Dependency cycles. Ids are the nodes of a graph; an id has a link to every name that its first
definition depends on, as far as that name is defined. Ids without a link to an id that is left are
taken away one after the other, and then ids to which no such link leads. What stays lies on a cycle or
on a way from one cycle to another.
-/

namespace Prompt.Cycle

def nodes (sections : List Section) : List String := (sections.map Section.id).eraseDups

def definition? (sections : List Section) (id : String) : Option Section :=
  sections.find? fun s => s.id == id

/-- The names that an id depends on, as often as its first definition gives them. -/
def dependencies (sections : List Section) (id : String) : List String :=
  ((definition? sections id).map Section.dependsOn).getD []

structure Link where
  source : String
  target : String
  deriving DecidableEq

def Link.reversed (l : Link) : Link := ⟨l.target, l.source⟩

def links (sections : List Section) (ids : List String) : List Link :=
  ids.flatMap fun id =>
    ((dependencies sections id).filter fun d => ids.contains d).map fun d => ⟨id, d⟩

structure Peeling where
  left : List String
  /-- How many links each id has to ids that have not been taken away. -/
  counts : Entries Int
  /-- The ids without such a link that are still to be taken away. -/
  waiting : List String
  deriving DecidableEq

namespace Peeling

def start (links : List Link) (ids : List String) : Peeling :=
  let counts : Entries Int := ids.map fun id => (id, (links.filter fun l => l.source == id).length)
  { left := ids, counts, waiting := (counts.filter fun c => c.2 == 0).map Prod.fst }

def lower (p : Peeling) (id : String) : Peeling :=
  match p.counts.get? id with
  | none => p
  | some n =>
    { p with
      counts := p.counts.insert id (n - 1)
      waiting := if n = 1 then p.waiting ++ [id] else p.waiting }

def take (links : List Link) (p : Peeling) (id : String) : Peeling :=
  ((links.filter fun l => l.target == id).map Link.source).foldl lower
    { p with left := p.left.filter fun other => other != id, waiting := p.waiting.erase id }

/-- Takes away what waits, one id a step. No id waits twice, so as many steps as there are ids are
enough. -/
def run (links : List Link) : Nat → Peeling → Peeling
  | 0, p => p
  | steps + 1, p =>
    match p.waiting with
    | [] => p
    | id :: _ => run links steps (p.take links id)

end Peeling

def peel (links : List Link) (ids : List String) : List String :=
  (Peeling.run links ids.length (Peeling.start links ids)).left

/-- The ids on cycles and between them. -/
def members (sections : List Section) : List String :=
  let reaching := peel (links sections (nodes sections)) (nodes sections)
  peel ((links sections reaching).map Link.reversed) reaching

end Prompt.Cycle
