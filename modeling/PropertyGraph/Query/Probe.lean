/-!
# Probing a text

A `Probe` is an attempt to pass a part of a text. It is tried at a place, and there it either
passes, with what it makes of the part and the place behind it, or fails. Of alternatives the first
that passes is taken and the others are forgotten (`orElse`); a repetition takes as much as it can
and gives nothing back (`run`, `many`). Whether a blank may stand somewhere is up to the rule: a
rule that allows it says `blanks` there.

Beside that a probe keeps book of the rules that failed at the farthest place where any did, from
which the reader of a wrong text can be told what was expected. The books have no bearing on what
passes. A rule that fails where exactly one of its parts failed leaves that part standing;
otherwise it takes the place of all its parts that failed where it started.
-/

namespace PropertyGraph.Query

/-- Whether a character may separate tokens. -/
def isSeparator (c : Char) : Bool := c = ' ' || c = '\t' || c = '\r' || c = '\n'

/-- Whether a character may be part of a word: an ASCII letter or digit, or an underscore. -/
def isWordChar (c : Char) : Bool := c.isAlphanum || c = '_'

/-- The character that quotes a name. -/
def backtick : Char := '\x60'

/-! ## Rules -/

/-- The rules of the language that an error may name, in the order in which it lists them. -/
inductive Rule
  | endOfInput
  | statement
  | query
  | matchClause
  | returnClause
  | nodePattern
  | nodeLabels
  | properties
  | propertyEntry
  | variableName
  | label
  | propertyKey
  | quotedName
  | plainName
  | stringLiteral
  | singleQuoted
  | doubleQuoted
  | boolean
  | integer
  | matchKeyword
  | returnKeyword
  deriving DecidableEq, Repr

namespace Rule

/-- All rules, in the order in which an error lists them. -/
def all : List Rule :=
  [endOfInput, statement, query, matchClause, returnClause, nodePattern, nodeLabels, properties,
    propertyEntry, variableName, label, propertyKey, quotedName, plainName, stringLiteral,
    singleQuoted, doubleQuoted, boolean, integer, matchKeyword, returnKeyword]

/-- The name of a rule in an error. -/
def name : Rule → String
  | endOfInput => "EOI"
  | statement => "statement"
  | query => "query"
  | matchClause => "match_clause"
  | returnClause => "return_clause"
  | nodePattern => "node_pattern"
  | nodeLabels => "node_labels"
  | properties => "properties"
  | propertyEntry => "property_entry"
  | variableName => "variable"
  | label => "label"
  | propertyKey => "property_key"
  | quotedName => "quoted_name"
  | plainName => "plain_name"
  | stringLiteral => "string_literal"
  | singleQuoted => "single_quoted"
  | doubleQuoted => "double_quoted"
  | boolean => "boolean"
  | integer => "integer"
  | matchKeyword => "MATCH"
  | returnKeyword => "RETURN"

end Rule

/-- The rules that failed at the farthest place so far. -/
structure Attempts where
  /-- The number of characters in front of that place. -/
  offset : Nat
  /-- The rules that failed there. -/
  rules : List Rule
  deriving DecidableEq, Repr

namespace Attempts

/-- How many rules failed at a place. -/
def countAt (a : Attempts) (offset : Nat) : Nat :=
  if a.offset = offset then a.rules.length else 0

/-- Notes that a rule failed that started at a place, where `mark` rules had failed before. -/
def fail (a : Attempts) (rule : Rule) (offset mark : Nat) : Attempts :=
  if a.countAt offset = mark + 1 then a
  else if offset = a.offset then ⟨offset, a.rules.take mark ++ [rule]⟩
  else if a.offset < offset then ⟨offset, [rule]⟩
  else a

end Attempts

/-! ## Probes -/

/-- A place in a text: the characters passed and those that follow. -/
structure Cursor where
  /-- The number of characters passed. -/
  offset : Nat
  /-- The characters that follow. -/
  rest : List Char

namespace Cursor

/-- The place behind the first characters of those that follow. -/
def skip (c : Cursor) (n : Nat) : Cursor := ⟨c.offset + n, c.rest.drop n⟩

/-- The place behind all blanks that follow. -/
def skipBlanks (c : Cursor) : Cursor := c.skip (c.rest.takeWhile isSeparator).length

end Cursor

/-- An attempt to pass a part of a text. -/
structure Probe (α : Type) where
  /-- What is made of the part and the place behind it; nothing if the part does not fit. -/
  pass : Cursor → Option (α × Cursor)
  /-- The rules that have failed at the farthest place, given those that had before. -/
  attempts : Cursor → Attempts → Attempts

namespace Probe

variable {α β : Type}

/-- A part that is no rule and has none in it. -/
def leaf (pass : Cursor → Option (α × Cursor)) : Probe α := ⟨pass, fun _ a => a⟩

/-- One part and then another, which may depend on what was made of the first. -/
protected def bind (p : Probe α) (f : α → Probe β) : Probe β where
  pass c :=
    match p.pass c with
    | some (x, c) => (f x).pass c
    | none => none
  attempts c a :=
    match p.pass c with
    | some (x, c') => (f x).attempts c' (p.attempts c a)
    | none => p.attempts c a

instance : Monad Probe where
  pure x := leaf fun c => some (x, c)
  bind := Probe.bind

/-- One part, or else another. -/
def orElse (p q : Probe α) : Probe α where
  pass c := (p.pass c).or (q.pass c)
  attempts c a := if (p.pass c).isSome then p.attempts c a else q.attempts c (p.attempts c a)

/-- A part that may be missing. -/
def optional (p : Probe α) : Probe (Option α) where
  pass c :=
    match p.pass c with
    | some (x, c) => some (some x, c)
    | none => some (none, c)
  attempts := p.attempts

/-- A part again and again, `n` times at most. -/
def repeated (p : Probe α) : Nat → Probe (List α)
  | 0 => pure []
  | n + 1 => {
      pass := fun c =>
        match p.pass c with
        | some (x, c) => ((p.repeated n).pass c).map fun (xs, c) => (x :: xs, c)
        | none => some ([], c)
      attempts := fun c a =>
        match p.pass c with
        | some (_, c') => (p.repeated n).attempts c' (p.attempts c a)
        | none => p.attempts c a }

/-- A part that is a rule of the language. -/
def rule (r : Rule) (p : Probe α) : Probe α where
  pass := p.pass
  attempts c a :=
    if (p.pass c).isSome then p.attempts c a
    else (p.attempts c a).fail r c.offset (a.countAt c.offset)

/-! ## Characters -/

/-- One given character. -/
def char (k : Char) : Probe Unit := leaf fun c =>
  if c.rest.head? = some k then some ((), c.skip 1) else none

/-- As many characters of a class as there are. -/
def run (p : Char → Bool) : Probe (List Char) := leaf fun c =>
  some (c.rest.takeWhile p, c.skip (c.rest.takeWhile p).length)

/-- As many characters of a class as there are, but at least one. -/
def run1 (p : Char → Bool) : Probe (List Char) := leaf fun c =>
  if (c.rest.takeWhile p).isEmpty then none else (run p).pass c

/-- A given word in any mixture of ASCII cases; what follows is not looked at. -/
def caseless (word : String) : Probe Unit := leaf fun c =>
  if (c.rest.take word.length).map Char.toLower = word.toList then some ((), c.skip word.length)
  else none

/-- Nothing, in front of anything but a character of a class. -/
def notAhead (p : Char → Bool) : Probe Unit := leaf fun c =>
  if c.rest.head?.any p then none else some ((), c)

/-- Nothing, at the end of the text. -/
def finish : Probe Unit := leaf fun c => if c.rest.isEmpty then some ((), c) else none

/-- All blanks that follow. -/
def blanks : Probe Unit := leaf fun c => some ((), c.skipBlanks)

/-- Nothing; what is made of it is the number of characters in front. -/
def offset : Probe Nat := leaf fun c => some (c.offset, c)

/-! ## Lists -/

/-- A part again and again with blanks between, `n + 1` times at most. -/
def manyWithin (n : Nat) (p : Probe α) : Probe (List α) := do
  match ← optional p with
  | none => return []
  | some x => return x :: (← repeated (do blanks; p) n)

/-- A part again and again with blanks between, as often as there is one. No part is empty, so
there are no more of them than characters. -/
def many (p : Probe α) : Probe (List α) where
  pass c := (manyWithin c.rest.length p).pass c
  attempts c := (manyWithin c.rest.length p).attempts c

/-- A part and then others again and again, with blanks between. -/
def series (first next : Probe α) : Probe (List α) := do
  let x ← first
  blanks
  let xs ← many next
  return x :: xs

/-- A part behind a given character, with blanks between. -/
def behind (k : Char) (p : Probe α) : Probe α := do
  char k
  blanks
  p

end Probe

end PropertyGraph.Query
