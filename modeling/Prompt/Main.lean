import Prompt.CommandLine.Execute
import Std.Time.Format

/-!
The program on the files and the clock of the system.
-/

namespace Prompt.CommandLine

open System (FilePath)

/-- The fault behind a failed access. The system gives its error numbers with either sign. -/
def systemFault : IO.Error → ReadFault
  | .noFileOrDirectory _ _ _ => .noSuchFile
  | .inappropriateType _ code details =>
    match code.toInt32.toInt.natAbs with
    | 20 => .notDirectory
    | 21 => .isDirectory
    | _ => .other details
  | .invalidArgument _ code details =>
    if code.toInt32.toInt.natAbs = 36 then .nameTooLong else .other details
  | e => .other (toString e)

def readSystemFile (path : String) : IO (Except ReadFault String) := do
  try
    let bytes ← IO.FS.readBinFile path
    match String.fromUTF8? bytes with
    | some text => return .ok text
    | none => return .error .notText
  catch e => return .error (systemFault e)

def directoryEntries? (path : String) : IO (Option (List String)) := do
  try
    let entries ← (path : FilePath).readDir
    return some (entries.toList.map IO.FS.DirEntry.fileName)
  catch _ => return none

def systemEnvironment : Environment IO where
  read := readSystemFile
  entries? := directoryEntries?
  milliseconds := IO.monoMsNow
  timestamp := do
    let now ← Std.Time.Timestamp.now
    return Std.Time.Formats.iso8601.format (Std.Time.DateTime.ofTimestamp now .UTC)

end Prompt.CommandLine

open Prompt.CommandLine in
def main (arguments : List String) : IO UInt32 := do
  let output ← program systemEnvironment arguments
  IO.print output.standard
  IO.eprint output.errors
  return UInt32.ofNat output.exitCode
