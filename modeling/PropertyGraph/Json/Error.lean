import PropertyGraph.Decimal.Shortest
import PropertyGraph.Text.Quoted

/-!
# Why a JSON text cannot be read

An error is of one of three kinds: the text ends too early, it is no JSON, or it is JSON of the
wrong shape. Errors are found from left to right, so one of a wrong shape in front hides any
fault behind it. A fourth kind arises in writing, when a buffer is too small.
-/

namespace PropertyGraph.Json

/-- What a text ends inside of. -/
inductive Unfinished
  | value
  | list
  | object
  | string
  deriving DecidableEq, Repr

/-- What a text ends inside of, in words. -/
def Unfinished.text : Unfinished → String
  | value => "a value"
  | list => "a list"
  | object => "an object"
  | string => "a string"

/-- How a text fails to be JSON. -/
inductive Malformed
  | trailingCharacters
  | trailingComma
  | expectedValue
  | expectedIdent
  | expectedColon
  | expectedCommaOrBracket
  | expectedCommaOrBrace
  | keyNotString
  | invalidEscape
  | invalidNumber
  | numberOutOfRange
  | invalidCodePoint
  | controlCharacter
  | loneSurrogate
  | unfinishedEscape
  deriving DecidableEq, Repr

/-- The failure in words. -/
def Malformed.text : Malformed → String
  | trailingCharacters => "trailing characters"
  | trailingComma => "trailing comma"
  | expectedValue => "expected value"
  | expectedIdent => "expected ident"
  | expectedColon => "expected \x60:\x60"
  | expectedCommaOrBracket => "expected \x60,\x60 or \x60]\x60"
  | expectedCommaOrBrace => "expected \x60,\x60 or \x60\x7d\x60"
  | keyNotString => "key must be a string"
  | invalidEscape => "invalid escape"
  | invalidNumber => "invalid number"
  | numberOutOfRange => "number out of range"
  | invalidCodePoint => "invalid unicode code point"
  | controlCharacter => "control character (\\u0000-\\u001F) found while parsing a string"
  | loneSurrogate => "lone leading surrogate in hex escape"
  | unfinishedEscape => "unexpected end of hex escape"

/-- What stands where something of another shape should. -/
inductive Found
  | null
  | boolean (truth : Bool)
  | integer (number : Int)
  | float (number : Decimal.Float64)
  | string (text : String)
  | sequence
  | map
  | unitVariant
  deriving DecidableEq, Repr

/-- What was found, in words. -/
def Found.text : Found → String
  | null => "null"
  | boolean truth => "boolean \x60" ++ (if truth then "true" else "false") ++ "\x60"
  | integer number => "integer \x60" ++ toString number ++ "\x60"
  | float number => "floating point \x60" ++ number.text ++ "\x60"
  | string text => "string " ++ Text.quoted text
  | sequence => "sequence"
  | map => "map"
  | unitVariant => "unit variant"

/-- Why a text cannot be read, or written. -/
inductive Error
  /-- The text ends too early. -/
  | unfinished (inside : Unfinished)
  /-- The text is no JSON. -/
  | malformed (how : Malformed)
  /-- Something of another shape was expected. -/
  | wrongShape (found : Found) (expected : String)
  /-- A number is outside the range of what was expected. -/
  | wrongValue (number : Int) (expected : String)
  /-- A record lacks a field. -/
  | missingField (name : String)
  /-- A record repeats a field. -/
  | repeatedField (name : String)
  /-- No variant has this name. -/
  | unknownVariant (name : String) (known : List String)
  /-- A list that stands for a record is too short. -/
  | wrongLength (length : Nat) (record : String) (fields : Nat)
  /-- The text does not fit where it is to be written. -/
  | bufferFull
  deriving DecidableEq, Repr

/-- The kinds of error. -/
inductive Category
  | data
  | malformed
  | unfinished
  | output
  deriving DecidableEq, Repr

namespace Error

/-- The kind of an error. -/
def category : Error → Category
  | unfinished _ => .unfinished
  | malformed _ => .malformed
  | bufferFull => .output
  | _ => .data

/-- Variants in words. -/
def oneOf (names : List String) : String :=
  match names.map (fun name => "\x60" ++ name ++ "\x60") with
  | [a, b] => s!"expected {a} or {b}"
  | names => "expected one of " ++ ", ".intercalate names

/-- The error in words. -/
def message : Error → String
  | unfinished inside => "EOF while parsing " ++ inside.text
  | malformed how => how.text
  | wrongShape found expected => s!"invalid type: {found.text}, expected {expected}"
  | wrongValue number expected =>
    s!"invalid value: {(Found.integer number).text}, expected {expected}"
  | missingField name => s!"missing field \x60{name}\x60"
  | repeatedField name => s!"duplicate field \x60{name}\x60"
  | unknownVariant name known => s!"unknown variant \x60{name}\x60, {oneOf known}"
  | wrongLength length record fields =>
    s!"invalid length {length}, expected struct {record} with {fields} elements"
  | bufferFull => "failed to write whole buffer"

end Error

end PropertyGraph.Json
