import Prompt.Section.Basic

/-!
The order of a run. Sections are visited in list order, each after the sections that it depends on. A
name means the first section that has it as id; a name that no section has is left out, and a cycle
is cut where it comes back to a section that has been visited. `priority` plays no part.
-/

namespace Prompt.Order

def first? (sections : List Section) (id : String) : Option Nat :=
  sections.findIdx? fun s => s.id == id

def dependencies (sections : List Section) (i : Nat) : List Nat :=
  match sections[i]? with
  | some s => s.dependsOn.filterMap (first? sections)
  | none => []

/-- The positions that have been entered, and those that have been left, last first. -/
structure Walk where
  entered : List Nat := []
  left : List Nat := []

/-- Visits a position unless it has been entered. Each visit inside another has one more position
entered, so fuel for as many visits as there are sections is enough. -/
def visit (sections : List Section) : Nat → Walk → Nat → Walk
  | 0, w, _ => w
  | fuel + 1, w, i =>
    if i ∈ w.entered then w
    else
      let inner := (dependencies sections i).foldl (visit sections fuel)
        { w with entered := i :: w.entered }
      { inner with left := i :: inner.left }

def positions (sections : List Section) : List Nat :=
  ((List.range sections.length).foldl (visit sections sections.length) {}).left.reverse

def resolve (sections : List Section) : List Section :=
  (positions sections).filterMap fun i => sections[i]?

end Prompt.Order
