import Prompt.Entries
import Prompt.Text.Measure

/-!
What the program asks of its surroundings: files, directories and a clock. Also a tree of files held in
memory, for runs that must not depend on a disk.
-/

namespace Prompt.CommandLine

inductive ReadFault where
  | noSuchFile
  | notDirectory
  | isDirectory
  | nameTooLong
  | notText
  | other (text : String)
  deriving DecidableEq

def ReadFault.message : ReadFault → String
  | noSuchFile => "No such file or directory (os error 2)"
  | notDirectory => "Not a directory (os error 20)"
  | isDirectory => "Is a directory (os error 21)"
  | nameTooLong => "File name too long (os error 36)"
  | notText => "stream did not contain valid UTF-8"
  | other text => text

def joinPath (directory name : String) : String :=
  if directory.toList.getLast? = some '/' then directory ++ name else directory ++ "/" ++ name

structure Environment (m : Type → Type) where
  read : String → m (Except ReadFault String)
  /-- The names in a directory, in any order; none if the path is no directory. -/
  entries? : String → m (Option (List String))
  milliseconds : m Nat
  timestamp : m String

/-! ### Files in memory -/

/-- Files by their paths, whose steps are separated by slashes. Directories are there as far as files are
in them. -/
abbrev Tree := Entries String

/-- Where a path leads: some steps into the tree, or to a directory above it. Nothing else above the tree
can be named. -/
inductive Place where
  | inside (steps : List String)
  | above

def Place.enter? : Place → String → Option Place
  | .inside [], ".." => some .above
  | .inside steps, ".." => some (.inside steps.dropLast)
  | .inside steps, step => some (.inside (steps ++ [step]))
  | .above, ".." => some .above
  | .above, _ => none

namespace Tree

def nameLimit : Nat := 255

def pathLimit : Nat := 4095

/-- The steps of a path; empty ones and `.` lead nowhere. -/
def steps (path : String) : List String :=
  ((Text.splitOnChar '/' path.toList).map String.ofList).filter fun s => s != "" && s != "."

inductive Node where
  | file (text : String)
  | directory (names : List String)

def below? (directory file : List String) : Option (List String) :=
  if directory.isPrefixOf file then some (file.drop directory.length) else none

def node? (t : Tree) : Place → Option Node
  | .above => some (.directory [])
  | .inside place =>
    match t.find? fun f => steps f.1 == place with
    | some f => some (.file f.2)
    | none =>
      let names := (t.filterMap fun f => (below? place (steps f.1)).bind List.head?).eraseDups
      if names.isEmpty && !place.isEmpty then none else some (.directory names)

/-- Follows steps from a directory. A name that is too long is noticed when it is looked up. -/
def follow (t : Tree) (place : Place) : List String → Except ReadFault Place
  | [] => .ok place
  | step :: rest =>
    match node? t place with
    | none => .error .noSuchFile
    | some (.file _) => .error .notDirectory
    | some (.directory _) =>
      if step.utf8ByteSize > nameLimit then .error .nameTooLong
      else match place.enter? step with
        | some next => t.follow next rest
        | none => .error .noSuchFile

def wantsDirectory (path : String) : Bool :=
  match ((Text.splitOnChar '/' path.toList).map String.ofList).getLast? with
  | some last => last == "" || last == "."
  | none => false

def origin (path : String) : Place :=
  if path.toList.head? = some '/' then .above else .inside []

def lookUp (t : Tree) (path : String) : Except ReadFault Node := do
  if path = "" then throw .noSuchFile
  if path.utf8ByteSize > pathLimit then throw .nameTooLong
  match node? t (← t.follow (origin path) (steps path)) with
  | none => throw .noSuchFile
  | some (.file text) => if wantsDirectory path then throw .notDirectory else return .file text
  | some node => return node

def read (t : Tree) (path : String) : Except ReadFault String :=
  match t.lookUp path with
  | .error fault => .error fault
  | .ok (.file text) => .ok text
  | .ok (.directory _) => .error .isDirectory

def entries? (t : Tree) (path : String) : Option (List String) :=
  match t.lookUp path with
  | .ok (.directory names) => some names
  | _ => none

def environment (t : Tree) : Environment Id where
  read path := t.read path
  entries? path := t.entries? path
  milliseconds := 0
  timestamp := ""

end Tree

end Prompt.CommandLine
