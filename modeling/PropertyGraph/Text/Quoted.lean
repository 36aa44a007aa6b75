import PropertyGraph.Text.Printable

/-!
# Quoted texts

A text between double quotes in which everything that could mislead a reader of a message is
escaped: quotes and backslashes, line breaks and tabs, and every character that leaves no mark of
its own.
-/

namespace PropertyGraph.Text

/-- A number in hexadecimal. -/
def hexText (n : Nat) : List Char := Nat.toDigits 16 n

/-- A character by number. -/
def numberedEscape (c : Char) : List Char :=
  '\\' :: 'u' :: '\x7b' :: hexText c.toNat ++ ['\x7d']

/-- A character as it stands between quotes. -/
def quotedChar (c : Char) : List Char :=
  if c = '\x00' then ['\\', '0']
  else if c = '\t' then ['\\', 't']
  else if c = '\r' then ['\\', 'r']
  else if c = '\n' then ['\\', 'n']
  else if c = '"' then ['\\', '"']
  else if c = '\\' then ['\\', '\\']
  else if isShown c then [c]
  else numberedEscape c

/-- A text between double quotes. -/
def quoted (s : String) : String :=
  String.ofList ('"' :: s.toList.flatMap quotedChar ++ ['"'])

end PropertyGraph.Text
