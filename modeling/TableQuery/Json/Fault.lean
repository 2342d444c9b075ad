import TableQuery.Json.Writer
import TableQuery.Text.Quoted

/-! What can be wrong with a JSON document, and where.
A fault is either one of the text or one of its shape, that is, a value of another kind than
the reader asked for.
-/

namespace TableQuery.Json

/-- What a text ended in the middle of. -/
inductive Construct where
  | value
  | list
  | object
  | string
deriving DecidableEq

namespace Construct

def name : Construct → String
  | value => "a value"
  | list => "a list"
  | object => "an object"
  | string => "a string"

end Construct

/-- The kinds of values that readers ask for by name. -/
inductive Container where
  | sequence
  | map
deriving DecidableEq

namespace Container

def name : Container → String
  | sequence => "a sequence"
  | map => "a map"

/-- The character with which a value of the kind begins. -/
def opening : Container → Char
  | sequence => '['
  | map => '\x7b'

end Container

/-- What a value looks like from outside. -/
inductive Shape where
  | null
  | bool (value : Bool)
  | number (value : JsonNumber)
  | string (text : String)
  | sequence
  | map
deriving DecidableEq

namespace Shape

def describe : Shape → String
  | null => "null"
  | bool value => "boolean `" ++ String.ofList (renderBool value) ++ "`"
  | number (.integer value bounds) =>
      "integer `" ++ String.ofList (JsonNumber.integer value bounds).render ++ "`"
  | number (.double value) => "floating point `" ++ String.ofList value.render ++ "`"
  | string text => "string " ++ Text.quoted text
  | sequence => "sequence"
  | map => "map"

end Shape

/-- The shape of a value. -/
def shape : Json → Shape
  | null => .null
  | bool value => .bool value
  | number value => .number value
  | string text => .string text
  | array _ => .sequence
  | object _ => .map

/-- What is wrong with a document. -/
inductive Problem where
  | unfinished (construct : Construct)
  | expectedValue
  | misspelledLiteral
  | expectedColon
  | expectedCommaOrBrace
  | expectedCommaOrBracket
  | keyNotString
  | trailingComma
  | trailingCharacters
  | invalidNumber
  | numberOutOfRange
  | invalidEscape
  | loneSurrogate
  | unfinishedSurrogatePair
  | controlCharacter
  | tooDeep
  | wrongShape (found : Shape) (expected : Container)
deriving DecidableEq

namespace Problem

def message : Problem → String
  | unfinished construct => s!"EOF while parsing {construct.name}"
  | expectedValue => "expected value"
  | misspelledLiteral => "expected ident"
  | expectedColon => "expected `:`"
  | expectedCommaOrBrace => "expected `,` or `\x7d`"
  | expectedCommaOrBracket => "expected `,` or `]`"
  | keyNotString => "key must be a string"
  | trailingComma => "trailing comma"
  | trailingCharacters => "trailing characters"
  | invalidNumber => "invalid number"
  | numberOutOfRange => "number out of range"
  | invalidEscape => "invalid escape"
  | loneSurrogate => "lone leading surrogate in hex escape"
  | unfinishedSurrogatePair => "unexpected end of hex escape"
  | controlCharacter =>
      "control character (\\u0000-\\u001F) found while parsing a string"
  | tooDeep => "recursion limit exceeded"
  | wrongShape found expected =>
      s!"invalid type: {found.describe}, expected {expected.name}"

end Problem

/-- A place in a text: a line counted from one, and the bytes read of that line. -/
structure Place where
  line : Nat
  column : Nat
deriving DecidableEq

namespace Place

/-- The place after a character, which takes as many columns as it has bytes. -/
def next (place : Place) (c : Char) : Place :=
  if c = '\n' then ⟨place.line + 1, 0⟩ else ⟨place.line, place.column + c.utf8Size⟩

/-- The place a number of bytes further on, or at the end of the text if that comes first.
It may lie inside a character.
-/
def advanceBytes (place : Place) : Nat → List Char → Place
  | _, [] => place
  | bytes, c :: rest =>
      if c.utf8Size ≤ bytes then (place.next c).advanceBytes (bytes - c.utf8Size) rest
      else ⟨place.line, place.column + bytes⟩

end Place

/-- A problem, and the part of the text that had not been read when it was found.
The problem lies the given number of bytes into that part.
-/
structure Fault where
  problem : Problem
  rest : List Char
  offset : Nat

namespace Fault

/-- A problem with what was read last. -/
def behind (problem : Problem) (rest : List Char) : Fault :=
  { problem, rest, offset := 0 }

/-- A problem with the next byte. -/
def ahead (problem : Problem) (rest : List Char) : Fault :=
  { problem, rest, offset := 1 }

/-- Where in the whole text the problem lies. -/
def place (fault : Fault) (text : List Char) : Place :=
  let start := (text.take (text.length - fault.rest.length)).foldl Place.next ⟨1, 0⟩
  start.advanceBytes fault.offset fault.rest

end Fault

/-- Why a text was rejected, and where. -/
structure Rejection where
  problem : Problem
  place : Place
deriving DecidableEq

namespace Rejection

def message (rejection : Rejection) : String :=
  let place := rejection.place
  s!"{rejection.problem.message} at line {place.line} column {place.column}"

end Rejection

end TableQuery.Json
