import Prompt.Run.Loaded

/-!
Loading fragments. The fetches of a load are registered in order and run at the same time; each that
ends in time is received when it ends. A fetch that does not deliver leaves its fragment out, and
sections that want it see missing data.
-/

namespace Prompt

inductive Fetched where
  | delivered (value : Json)
  /-- It gave a reason, or its own time was over. -/
  | failed (reason : String)
  | broken

def Fetched.value? : Fetched → Option Json
  | delivered value => some value
  | failed _ | broken => none

structure Slot where
  name : String
  value? : Option Json := none

structure Arrival where
  place : Nat
  fetched : Fetched

namespace Slot

def register (names : List String) : List Slot := names.map fun name => { name }

/-- A delivered value goes into the slot of its fetch; any other end changes nothing. -/
def receive (slots : List Slot) (a : Arrival) : List Slot :=
  match a.fetched.value? with
  | some value => slots.modify a.place fun s => { s with value? := some value }
  | none => slots

/-- The fragments in the slots. Of several under one name the last one counts, in the place of the
first one. -/
def fragments (slots : List Slot) : Entries Json :=
  Entries.ofList (slots.filterMap fun s => s.value?.map fun j => (s.name, j))

end Slot

namespace Loaded

/-- The data of a run from the fetches that ended before the load was over, in the order in which they
ended. -/
def ofArrivals (names : List String) (arrivals : List Arrival) (subjectKey : String) : Loaded :=
  ofFragments (Slot.fragments (arrivals.foldl Slot.receive (Slot.register names))) subjectKey

def ofFetches (fetches : List (String × Fetched)) (subjectKey : String) : Loaded :=
  ofArrivals (fetches.map Prod.fst) (fetches.mapIdx fun place f => ⟨place, f.2⟩) subjectKey

end Loaded

end Prompt
