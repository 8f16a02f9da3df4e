import Prompt.Json.Basic
import Prompt.Template.Directive

/-!
Strict checks for authors. Compiling never fails; here the mistakes that it passes over are reported
with the byte offset of their tag: blocks that do not pair, tags without meaning, and paths that lead
nowhere in sample data.
-/

namespace Prompt.Template

inductive Issue where
  | unmatchedOpen (name : List Char) (offset : Nat)
  | unmatchedClose (name : List Char) (offset : Nat)
  | nestedBlock (name : List Char) (offset : Nat)
  | malformedTag (inner : List Char) (offset : Nat)
  | unterminatedTag (offset : Nat)
  | unknownPath (path : List Char) (offset : Nat)
  deriving DecidableEq

namespace Issue

def located (offset : Nat) : String := "at byte " ++ toString offset

def message : Issue → String
  | unmatchedOpen name offset =>
    "block '" ++ String.ofList (tagSource ('#' :: name)) ++ "' " ++ located offset ++
      " is never closed"
  | unmatchedClose name offset =>
    "'" ++ String.ofList (tagSource ('/' :: name)) ++ "' " ++ located offset ++
      " has no matching opening tag"
  | nestedBlock name offset =>
    "block '" ++ String.ofList name ++ "' " ++ located offset ++ " is nested inside another '" ++
      String.ofList name ++ "' block; the inner close tag ends the outer block"
  | malformedTag inner offset =>
    "malformed tag '" ++ String.ofList (tagSource inner) ++ "' " ++ located offset
  | unterminatedTag offset => "'\x7b\x7b' " ++ located offset ++ " is never terminated"
  | unknownPath path offset =>
    "path '" ++ String.ofList path ++ "' " ++ located offset ++
      " does not resolve in the sample data"

def record (kind : String) (fields : List (String × List Char)) (offset : Nat) : Json :=
  .obj (("kind", .str kind) :: fields.map (fun f => (f.1, .str (String.ofList f.2))) ++
    [("offset", .ofNat offset)])

def toJson : Issue → Json
  | unmatchedOpen name offset => record "unmatchedOpen" [("name", name)] offset
  | unmatchedClose name offset => record "unmatchedClose" [("name", name)] offset
  | nestedBlock name offset => record "nestedBlock" [("name", name)] offset
  | malformedTag inner offset => record "malformedTag" [("tag", inner)] offset
  | unterminatedTag offset => record "unterminatedTag" [] offset
  | unknownPath path offset => record "unknownPath" [("path", path)] offset

end Issue

structure Frame where
  opening : Opening
  offset : Nat
  deriving DecidableEq

def Frame.name (f : Frame) : List Char := f.opening.closeName

def Frame.unclosed (f : Frame) : Issue := .unmatchedOpen f.name f.offset

/-- An opening pair of braces that begins no tag. -/
def strayOpening (offset : Nat) (text : List Char) : List Issue :=
  match breakFirst? openBrace text with
  | some (before, _) => [.unterminatedTag (offset + Text.byteSize before)]
  | none => []

/-- Closes the innermost block of the name; the blocks opened inside it stay unclosed. -/
def closeBlock (stack : List Frame) (name : List Char) (offset : Nat) :
    List Issue × List Frame :=
  let inside := stack.takeWhile fun f => f.name != name
  match stack.dropWhile fun f => f.name != name with
  | [] => ([.unmatchedClose name offset], stack)
  | _ :: outside => (inside.reverse.map Frame.unclosed, outside)

def isLoopPath (path : List Char) : Bool :=
  path = ['t', 'h', 'i', 's'] || path = ['@', 'i', 'n', 'd', 'e', 'x'] ||
    (Text.after? ['t', 'h', 'i', 's', '.'] path).isSome

/-- Looks a path up in the sample data. Inside a scoped block the scope is not known, and every path
passes. -/
def checkPath (sample : Option Json) (stack : List Frame) (path : List Char) (offset : Nat) :
    List Issue :=
  match sample with
  | none => []
  | some data =>
    if stack.any fun f => f.opening.kind = .within then []
    else if (stack.any fun f => f.opening.kind = .forEach) && isLoopPath path then []
    else if (data.resolve? path).isSome then [] else [.unknownPath path offset]

def checkTag (sample : Option Json) (stack : List Frame) (inner : List Char) (offset : Nat) :
    List Issue × List Frame :=
  match Directive.of inner with
  | .close name => closeBlock stack name offset
  | .opens o =>
    let nested := if stack.any fun f => f.name = o.closeName
      then [Issue.nestedBlock o.closeName offset] else []
    (nested ++ checkPath sample stack o.path offset, ⟨o, offset⟩ :: stack)
  | .variable path => (checkPath sample stack path offset, stack)
  | .malformed => ([.malformedTag inner offset], stack)

def checkFrom (sample : Option Json) (stack : List Frame) (offset : Nat) :
    List Piece → List Issue
  | [] => stack.reverse.map Frame.unclosed
  | .text chars :: rest =>
    strayOpening offset chars ++ checkFrom sample stack (offset + Text.byteSize chars) rest
  | .tag inner :: rest =>
    let result := checkTag sample stack inner offset
    result.1 ++ checkFrom sample result.2 (offset + Text.byteSize (tagSource inner)) rest

def check (template : String) (sample : Option Json) : List Issue :=
  checkFrom sample [] 0 (scan template.toList)

end Prompt.Template
