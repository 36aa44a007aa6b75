/-!
# Places in a text

A place is a line and a column, both counted from one. A line ends with a line feed; the column
counts characters, so a carriage return takes one like any other character.
-/

namespace PropertyGraph.Text

/-- A line and a column, both counted from one. -/
structure Place where
  /-- One more than the line feeds before the place. -/
  line : Nat
  /-- One more than the characters since the last line feed. -/
  column : Nat
  deriving DecidableEq, Repr

namespace Place

/-- The first place of a text. -/
def start : Place := ⟨1, 1⟩

/-- The place behind a character. -/
def step (p : Place) (c : Char) : Place :=
  if c = '\n' then ⟨p.line + 1, 1⟩ else ⟨p.line, p.column + 1⟩

/-- The place behind a text. -/
def after (text : List Char) : Place := text.foldl step start

/-- A place as written in messages. -/
def text (p : Place) : String := s!"{p.line}:{p.column}"

@[simp] theorem after_nil : after [] = start := rfl

theorem after_concat (text : List Char) (c : Char) :
    after (text ++ [c]) = (after text).step c := by
  simp [after]

end Place

/-- The characters of the line that position `n` is on, without its line end and without any
carriage return. -/
def lineAt (text : List Char) (n : Nat) : List Char :=
  let before := ((text.take n).reverse.takeWhile (· ≠ '\n')).reverse
  let behind := (text.drop n).takeWhile (· ≠ '\n')
  (before ++ behind).filter (· ≠ '\r')

end PropertyGraph.Text
