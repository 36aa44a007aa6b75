import PropertyGraph.Decimal.Integer
import PropertyGraph.Table
import PropertyGraph.Text.Utf8

/-!
# Property values

A property holds a string, a 64-bit integer, a truth value or opaque bytes. Every value has a
*canonical encoding* as bytes (`Value.encode`), and filters compare values by it alone: the
integer `21` and the string `21` look the same to a filter, while each still reads back as what
it was through `Value.decode`, which is told the kind.
-/

namespace PropertyGraph

/-- The kinds of value that a property can hold. -/
inductive Kind
  | string
  | integer
  | boolean
  | bytes
  deriving DecidableEq, Repr

namespace Kind

/-- The name of a kind in dumps and messages. -/
def name : Kind → String
  | string => "string"
  | integer => "integer"
  | boolean => "boolean"
  | bytes => "bytes"

/-- The short name under which a kind may also be asked for. -/
def shortName : Kind → String
  | string => "str"
  | integer => "int"
  | boolean => "bool"
  | bytes => "raw"

/-- All kinds. -/
def all : List Kind := [string, integer, boolean, bytes]

end Kind

/-- Why a payload is no value. -/
inductive ValueError
  /-- No kind has this name. -/
  | unknownKind (name : String)
  /-- The bytes encode no value of this kind. Opaque bytes encode themselves, so they are never at
  fault. -/
  | malformed (kind : Kind) (coded : kind ≠ .bytes)
  deriving DecidableEq, Repr

/-- What a malformed payload fails to be. -/
def Kind.complaint : (kind : Kind) → kind ≠ .bytes → String
  | .string, _ => "payload is not valid UTF-8"
  | .integer, _ => "payload is not a decimal integer"
  | .boolean, _ => "payload is neither \"true\" nor \"false\""

/-- The error in words. -/
def ValueError.message : ValueError → String
  | unknownKind name => s!"Invalid {name} property value: unknown property kind"
  | malformed kind coded => s!"Invalid {kind.name} property value: {kind.complaint coded}"

/-- A text with its ASCII letters in lower case; every other character stays. -/
def asciiLower (s : String) : String := String.ofList (s.toList.map Char.toLower)

/-- The kind with a name or short name, in any mixture of ASCII cases. -/
def Kind.ofName (text : String) : Except ValueError Kind :=
  let lower := asciiLower text
  match Kind.all.find? (fun k => lower = k.name || lower = k.shortName) with
  | some kind => .ok kind
  | none => .error (.unknownKind lower)

/-- A property value. -/
inductive Value
  | string (text : String)
  | integer (number : Int64)
  | boolean (truth : Bool)
  | bytes (payload : List UInt8)
  deriving DecidableEq, Repr

namespace Value

instance : Inhabited Value := ⟨boolean false⟩

/-- The kind of a value. -/
def kind : Value → Kind
  | string _ => .string
  | integer _ => .integer
  | boolean _ => .boolean
  | bytes _ => .bytes

/-- The two truth values in words. -/
def truthText (truth : Bool) : String := if truth then "true" else "false"

/-- The canonical encoding: a text in UTF-8, a number in decimal, a truth value in words, and
bytes as they are. -/
def encode : Value → List UInt8
  | string text => Utf8.ofString text
  | integer number => Utf8.ofString (Decimal.text number)
  | boolean truth => Utf8.ofString (truthText truth)
  | bytes payload => payload

/-- Whether the canonical encoding is the given bytes. -/
def hasEncoding (v : Value) (encoding : List UInt8) : Bool := v.encode = encoding

/-- Reads a payload as a value of a known kind. -/
def decodeAs (kind : Kind) (payload : List UInt8) : Except ValueError Value :=
  match kind with
  | .bytes => .ok (bytes payload)
  | .string =>
    match Utf8.decode payload with
    | .ok text => .ok (string (String.ofList text))
    | .error _ => .error (.malformed .string nofun)
  | .integer =>
    match Utf8.decode payload with
    | .ok text =>
      match Decimal.int64? text with
      | some number => .ok (integer number)
      | none => .error (.malformed .integer nofun)
    | .error _ => .error (.malformed .integer nofun)
  | .boolean =>
    if payload = Utf8.ofString (truthText true) then .ok (boolean true)
    else if payload = Utf8.ofString (truthText false) then .ok (boolean false)
    else .error (.malformed .boolean nofun)

/-- Reads a payload as a value of the kind with the given name. -/
def decode (kindName : String) (payload : List UInt8) : Except ValueError Value := do
  decodeAs (← Kind.ofName kindName) payload

/-- The value as shown to people and in query texts: a string between double quotes with nothing
escaped, and only the length of opaque bytes. -/
def text : Value → String
  | string text => "\"" ++ text ++ "\""
  | integer number => Decimal.text number
  | boolean truth => truthText truth
  | bytes payload => s!"<{payload.length} bytes>"

/-- The text of a string value. -/
def asString? : Value → Option String
  | string text => some text
  | _ => none

/-- The number of an integer value. -/
def asInteger? : Value → Option Int64
  | integer number => some number
  | _ => none

/-- The truth of a boolean value. -/
def asBoolean? : Value → Option Bool
  | boolean truth => some truth
  | _ => none

/-- The payload of a value of opaque bytes. -/
def asBytes? : Value → Option (List UInt8)
  | bytes payload => some payload
  | _ => none

end Value

/-- The properties of a node or edge, by key. -/
abbrev PropertyMap := Table Value

end PropertyGraph
