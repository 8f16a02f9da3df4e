import Prompt.Decimal.Scale
import Prompt.Json.Basic

/-!
Reading JSON text. A fault is reported with its line and its column, which counts bytes. Containers
nest at most 127 deep. Of a repeated key the last value stays, in the place of the first.
-/

namespace Prompt.Json

inductive Fault where
  | endInList
  | endInObject
  | endInString
  | endInValue
  | expectedColon
  | expectedListEnd
  | expectedObjectEnd
  | expectedWord
  | expectedValue
  | expectedKey
  | invalidEscape
  | invalidNumber
  | numberOutOfRange
  | controlCharacter
  | loneSurrogate
  | unfinishedSurrogate
  | trailingComma
  | trailingCharacters
  | tooDeep
  deriving DecidableEq

def Fault.message : Fault → String
  | endInList => "EOF while parsing a list"
  | endInObject => "EOF while parsing an object"
  | endInString => "EOF while parsing a string"
  | endInValue => "EOF while parsing a value"
  | expectedColon => "expected `:`"
  | expectedListEnd => "expected `,` or `]`"
  | expectedObjectEnd => "expected `,` or `\x7d`"
  | expectedWord => "expected ident"
  | expectedValue => "expected value"
  | expectedKey => "key must be a string"
  | invalidEscape => "invalid escape"
  | invalidNumber => "invalid number"
  | numberOutOfRange => "number out of range"
  | controlCharacter => "control character (\\u0000-\\u001F) found while parsing a string"
  | loneSurrogate => "lone leading surrogate in hex escape"
  | unfinishedSurrogate => "unexpected end of hex escape"
  | trailingComma => "trailing comma"
  | trailingCharacters => "trailing characters"
  | tooDeep => "recursion limit exceeded"

/-- A fault and the number of bytes of the text that follow the place where it shows. -/
structure Failure where
  fault : Fault
  left : Nat
  deriving DecidableEq

def failBefore {α : Type} (fault : Fault) (rest : List Char) : Except Failure α :=
  .error ⟨fault, Text.byteSize rest⟩

def failAt {α : Type} (fault : Fault) (rest : List Char) : Except Failure α :=
  .error ⟨fault, Text.byteSize rest - 1⟩

def isGap (c : Char) : Bool := c = ' ' || c = '\n' || c = '\t' || c = '\r'

def skipGap (s : List Char) : List Char := s.dropWhile isGap

/-! ### Strings -/

def hexValue? (c : Char) : Option Nat :=
  if c.isDigit then some (c.toNat - '0'.toNat)
  else if 'a' ≤ c ∧ c ≤ 'f' then some (c.toNat - 'a'.toNat + 10)
  else if 'A' ≤ c ∧ c ≤ 'F' then some (c.toNat - 'A'.toNat + 10)
  else none

def readHex (s : List Char) : Except Failure (Nat × List Char) :=
  match s with
  | a :: b :: c :: d :: rest =>
    match hexValue? a, hexValue? b, hexValue? c, hexValue? d with
    | some a, some b, some c, some d => .ok (((a * 16 + b) * 16 + c) * 16 + d, rest)
    | _, _, _, _ => .error ⟨.invalidEscape, Text.byteSize s - 4⟩
  | _ =>
    if Text.byteSize s < 4 then .error ⟨.endInString, 0⟩
    else .error ⟨.invalidEscape, Text.byteSize s - 4⟩

def isLeadingSurrogate (n : Nat) : Bool := 0xD800 ≤ n && n ≤ 0xDBFF

def isTrailingSurrogate (n : Nat) : Bool := 0xDC00 ≤ n && n ≤ 0xDFFF

/-- The character of a numeric escape; one beyond 16 bits is written as two surrogates. -/
def readUnicodeEscape (s : List Char) : Except Failure (Char × List Char) := do
  let (n, rest) ← readHex s
  if isTrailingSurrogate n then failBefore .loneSurrogate rest
  else if isLeadingSurrogate n then
    match rest with
    | [] => failBefore .endInString []
    | '\\' :: [] => failBefore .endInString []
    | '\\' :: 'u' :: rest =>
      let (m, rest) ← readHex rest
      if isTrailingSurrogate m then
        .ok (Char.ofNat (0x10000 + (n - 0xD800) * 0x400 + (m - 0xDC00)), rest)
      else failBefore .loneSurrogate rest
    | '\\' :: rest => failAt .unfinishedSurrogate rest
    | rest => failAt .unfinishedSurrogate rest
  else .ok (Char.ofNat n, rest)

def readEscape (s : List Char) : Except Failure (Char × List Char) :=
  match s with
  | [] => failBefore .endInString []
  | '"' :: rest => .ok ('"', rest)
  | '\\' :: rest => .ok ('\\', rest)
  | '/' :: rest => .ok ('/', rest)
  | 'b' :: rest => .ok ('\x08', rest)
  | 'f' :: rest => .ok ('\x0c', rest)
  | 'n' :: rest => .ok ('\n', rest)
  | 'r' :: rest => .ok ('\r', rest)
  | 't' :: rest => .ok ('\t', rest)
  | 'u' :: rest => readUnicodeEscape rest
  | _ => failAt .invalidEscape s

/-- The rest of a string after its opening quote; `done` holds the characters before, last first. -/
def readStringFrom : Nat → List Char → List Char → Except Failure (List Char × List Char)
  | 0, _, _ => failBefore .endInString []
  | fuel + 1, done, s =>
    match s with
    | [] => failBefore .endInString []
    | '"' :: rest => .ok (done.reverse, rest)
    | '\\' :: rest =>
      match readEscape rest with
      | .ok (c, rest) => readStringFrom fuel (c :: done) rest
      | .error e => .error e
    | c :: rest =>
      if c.toNat < 0x20 then failBefore .controlCharacter rest
      else readStringFrom fuel (c :: done) rest

def readString (s : List Char) : Except Failure (String × List Char) := do
  let (chars, rest) ← readStringFrom (s.length + 1) [] s
  .ok (String.ofList chars, rest)

/-! ### Numbers -/

def exponentLimit : Nat := Nat.pow 2 31

def signed (negative : Bool) (x : Float) : Float := if negative then -x else x

def ofScaled (negative : Bool) (n : Nat) (e : Int) (rest : List Char) :
    Except Failure (Number × List Char) :=
  match Decimal.ofScaled? n e with
  | some x => .ok (.double (signed negative x), rest)
  | none => failBefore .numberOutOfRange rest

def readExponent (negative : Bool) (n : Nat) (e : Int) (s : List Char) :
    Except Failure (Number × List Char) :=
  let (down, s) := match s with
    | '+' :: rest => (false, rest)
    | '-' :: rest => (true, rest)
    | rest => (false, rest)
  let digits := s.takeWhile Char.isDigit
  let rest := s.dropWhile Char.isDigit
  if digits.isEmpty then
    if s.isEmpty then failBefore .endInValue [] else failAt .invalidNumber s
  else
    let (power, excess) := Decimal.absorb exponentLimit 0 digits
    if excess.isEmpty then ofScaled negative n (if down then e - power else e + power) rest
    else if n ≠ 0 ∧ down = false then failBefore .numberOutOfRange (excess.drop 1 ++ rest)
    else .ok (.double (signed negative 0.0), rest)

/-- The number of digits that a decimal takes as a whole number is limited by 64 bits. -/
def digitLimit : Nat := Nat.pow 2 64

/-- A number without its sign. Without fraction and exponent, and within 64 bits, it is whole. -/
def readNumber (negative : Bool) (s : List Char) : Except Failure (Number × List Char) :=
  let whole := s.takeWhile Char.isDigit
  let rest := s.dropWhile Char.isDigit
  match whole with
  | [] => if s.isEmpty then failBefore .endInValue [] else failAt .invalidNumber s
  | '0' :: next :: more => failAt .invalidNumber (next :: more ++ rest)
  | _ =>
    let (n, excess) := Decimal.absorb digitLimit 0 whole
    match rest with
    | '.' :: rest =>
      let fraction := rest.takeWhile Char.isDigit
      let after := rest.dropWhile Char.isDigit
      if fraction.isEmpty then
        if rest.isEmpty then failBefore .endInValue [] else failAt .invalidNumber rest
      else
        let (n, unused) := Decimal.absorb digitLimit n fraction
        let e : Int := (excess.length : Int) + unused.length - fraction.length
        match after with
        | 'e' :: rest => readExponent negative n e rest
        | 'E' :: rest => readExponent negative n e rest
        | _ => ofScaled negative n e after
    | 'e' :: rest => readExponent negative n excess.length rest
    | 'E' :: rest => readExponent negative n excess.length rest
    | _ =>
      if excess.isEmpty then
        if negative = false then .ok (.int n, rest)
        else if n = 0 ∨ Nat.pow 2 63 < n then .ok (.double (-Number.magnitude n), rest)
        else .ok (.int (-n), rest)
      else ofScaled negative n excess.length rest

/-! ### Values -/

def readWord (word : List Char) (value : Json) (s : List Char) : Except Failure (Json × List Char) :=
  match word, s with
  | [], s => .ok (value, s)
  | _ :: _, [] => failBefore .endInValue []
  | a :: word, c :: rest => if a = c then readWord word value rest else failAt .expectedWord s

/-- Containers may nest to one less than this. -/
def depthLimit : Nat := 128

mutual

/-- One value. `depth` is how much deeper containers may nest, plus one. -/
def readValue (fuel depth : Nat) (s : List Char) : Except Failure (Json × List Char) :=
  match fuel with
  | 0 => failBefore .endInValue []
  | fuel + 1 =>
    match skipGap s with
    | [] => failBefore .endInValue []
    | 'n' :: rest => readWord ['u', 'l', 'l'] .null rest
    | 't' :: rest => readWord ['r', 'u', 'e'] (.bool true) rest
    | 'f' :: rest => readWord ['a', 'l', 's', 'e'] (.bool false) rest
    | '"' :: rest =>
      match readString rest with
      | .ok (s, rest) => .ok (.str s, rest)
      | .error e => .error e
    | '[' :: rest =>
      if depth ≤ 1 then failAt .tooDeep ('[' :: rest)
      else match readItems fuel (depth - 1) true rest with
        | .ok (xs, rest) => .ok (.arr xs, rest)
        | .error e => .error e
    | '\x7b' :: rest =>
      if depth ≤ 1 then failAt .tooDeep ('\x7b' :: rest)
      else match readEntries fuel (depth - 1) true rest with
        | .ok (es, rest) => .ok (.obj (Entries.ofList es), rest)
        | .error e => .error e
    | '-' :: rest =>
      match readNumber true rest with
      | .ok (n, rest) => .ok (.num n, rest)
      | .error e => .error e
    | c :: rest =>
      if c.isDigit then
        match readNumber false (c :: rest) with
        | .ok (n, rest) => .ok (.num n, rest)
        | .error e => .error e
      else failAt .expectedValue (c :: rest)

def readItems (fuel depth : Nat) (first : Bool) (s : List Char) :
    Except Failure (List Json × List Char) :=
  match fuel with
  | 0 => failBefore .endInValue []
  | fuel + 1 => do
    let s ← match skipGap s with
      | [] => failBefore .endInList []
      | ']' :: rest => return ([], rest)
      | c :: rest =>
        if first then pure (c :: rest)
        else if c = ',' then
          match skipGap rest with
          | [] => failBefore .endInValue []
          | ']' :: rest => failAt .trailingComma (']' :: rest)
          | rest => pure rest
        else failAt .expectedListEnd (c :: rest)
    let (x, s) ← readValue fuel depth s
    let (xs, s) ← readItems fuel depth false s
    return (x :: xs, s)

def readEntries (fuel depth : Nat) (first : Bool) (s : List Char) :
    Except Failure (List (String × Json) × List Char) :=
  match fuel with
  | 0 => failBefore .endInValue []
  | fuel + 1 => do
    let s ← match skipGap s with
      | [] => failBefore .endInObject []
      | '\x7d' :: rest => return ([], rest)
      | c :: rest =>
        if first then
          if c = '"' then pure rest else failAt .expectedKey (c :: rest)
        else if c = ',' then
          match skipGap rest with
          | [] => failBefore .endInValue []
          | '"' :: rest => pure rest
          | '\x7d' :: rest => failAt .trailingComma ('\x7d' :: rest)
          | rest => failAt .expectedKey rest
        else failAt .expectedObjectEnd (c :: rest)
    let (key, s) ← readString s
    let s ← match skipGap s with
      | [] => failBefore .endInObject []
      | ':' :: rest => pure rest
      | rest => failAt .expectedColon rest
    let (x, s) ← readValue fuel depth s
    let (es, s) ← readEntries fuel depth false s
    return ((key, x) :: es, s)

end

/-- One value and nothing after it. Every character read uses up at most two units of fuel. -/
def readChars (s : List Char) : Except Failure Json := do
  let (j, rest) ← readValue (2 * s.length + 2) depthLimit s
  match skipGap rest with
  | [] => .ok j
  | rest => failAt .trailingCharacters rest

/-! ### Positions -/

/-- A place in a text: its line from 1, and the bytes of the line before it. -/
structure Position where
  line : Nat
  column : Nat
  deriving DecidableEq

def Position.advance (p : Position) (bytes : Nat) : List Char → Position
  | [] => p
  | c :: rest =>
    if bytes = 0 then p
    else if c = '\n' then Position.advance ⟨p.line + 1, 0⟩ (bytes - 1) rest
    else Position.advance ⟨p.line, p.column + min bytes c.utf8Size⟩ (bytes - c.utf8Size) rest

structure ReadError where
  fault : Fault
  position : Position
  deriving DecidableEq

def ReadError.message (e : ReadError) : String :=
  e.fault.message ++ " at line " ++ toString e.position.line ++ " column " ++
    toString e.position.column

def Failure.locate (text : List Char) (f : Failure) : ReadError :=
  ⟨f.fault, Position.advance ⟨1, 0⟩ (Text.byteSize text - f.left) text⟩

def read (text : String) : Except ReadError Json :=
  (readChars text.toList).mapError (Failure.locate text.toList)

end Prompt.Json
