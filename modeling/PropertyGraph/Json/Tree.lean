/-!
# JSON texts

A `Tree` is what a JSON text says, and `Tree.write` is a text that says it, in one of two styles:
compact, with no blank at all, or indented, with each item of a list or object on a line of its
own. The entries of an object keep their order.
-/

namespace PropertyGraph.Json

/-- What a JSON text says. -/
inductive Tree
  | null
  | boolean (truth : Bool)
  | number (n : Int)
  | string (s : String)
  | list (items : List Tree)
  | object (entries : List (String × Tree))

/-- How a text is laid out. -/
inductive Style
  | compact
  | indented
  deriving DecidableEq, Repr

namespace Style

/-- What stands in front of an item at a depth of nesting. -/
def lead : Style → Nat → List Char
  | compact, _ => []
  | indented, depth => '\n' :: List.replicate (2 * depth) ' '

/-- What stands between a key and its value. -/
def colon : Style → List Char
  | compact => [':']
  | indented => [':', ' ']

end Style

/-! ## Strings -/

/-- A digit of a number below 16. -/
def hexDigit (n : Nat) : Char := "0123456789abcdef".toList.getD n '0'

/-- A character as it stands in a string: quote, backslash and control characters are escaped,
everything else stands for itself. -/
def writeChar (c : Char) : List Char :=
  if c = '"' then ['\\', '"']
  else if c = '\\' then ['\\', '\\']
  else if c = '\x08' then ['\\', 'b']
  else if c = '\x0c' then ['\\', 'f']
  else if c = '\n' then ['\\', 'n']
  else if c = '\r' then ['\\', 'r']
  else if c = '\t' then ['\\', 't']
  else if c.toNat < 0x20 then
    ['\\', 'u', '0', '0', hexDigit (c.toNat / 16), hexDigit (c.toNat % 16)]
  else [c]

/-- A text between quotes. -/
def writeString (s : String) : List Char := '"' :: s.toList.flatMap writeChar ++ ['"']

/-! ## Trees -/

namespace Tree

variable (style : Style)

mutual

/-- A tree as a text whose lines stand at a depth of nesting. -/
def writeAt (depth : Nat) : Tree → List Char
  | null => "null".toList
  | boolean truth => (if truth then "true" else "false").toList
  | number n => (toString n).toList
  | string s => writeString s
  | list [] => ['[', ']']
  | list (item :: rest) =>
    '[' :: style.lead (depth + 1) ++ writeAt (depth + 1) item ++ writeItems (depth + 1) rest ++
      style.lead depth ++ [']']
  | object [] => ['\x7b', '\x7d']
  | object ((key, item) :: rest) =>
    '\x7b' :: style.lead (depth + 1) ++ writeString key ++ style.colon ++
      writeAt (depth + 1) item ++ writeEntries (depth + 1) rest ++ style.lead depth ++ ['\x7d']

/-- The items behind the first one of a list, with a comma in front of each. -/
def writeItems (depth : Nat) : List Tree → List Char
  | [] => []
  | item :: rest => ',' :: style.lead depth ++ writeAt depth item ++ writeItems depth rest

/-- The entries behind the first one of an object, with a comma in front of each. -/
def writeEntries (depth : Nat) : List (String × Tree) → List Char
  | [] => []
  | (key, item) :: rest =>
    ',' :: style.lead depth ++ writeString key ++ style.colon ++ writeAt depth item ++
      writeEntries depth rest

end

/-- A tree as a text. -/
def write (t : Tree) : List Char := t.writeAt style 0

/-- A list of texts. -/
def texts (items : List String) : Tree := list (items.map string)

end Tree

end PropertyGraph.Json
