import PropertyGraph.Decimal.Integer
import PropertyGraph.Query.Probe

/-!
# Statements

The written form of a query: one or more `MATCH` clauses with one node pattern each, then
`RETURN` with the variables to return. A `Statement` keeps what was written, repeated keys and
numbers out of range included; whether it means anything is decided in `Query.Reading`.

The rules of the language are probes, one for each rule, and `Statement.read?` is the last of
them tried on a whole text.
-/

namespace PropertyGraph.Query

/-- Whether a word is a keyword, in any mixture of ASCII cases. -/
def isKeyword (keyword : String) (letters : List Char) : Bool :=
  letters.map Char.toLower = keyword.toList

/-- A literal as written. -/
inductive Literal
  /-- The characters between quotes. -/
  | text (content : List Char)
  /-- One of the two truth values. -/
  | boolean (truth : Bool)
  /-- Digits, behind a minus sign or not. -/
  | integer (minus : Bool) (digits : List Char)
  deriving DecidableEq, Repr

/-- An entry of a property map as written. -/
structure Entry where
  /-- The key, without backticks. -/
  key : List Char
  /-- The value. -/
  literal : Literal
  /-- How many characters stand in front of the value. -/
  offset : Nat
  deriving DecidableEq, Repr

/-- A node pattern as written. -/
structure PatternText where
  /-- The variable that the pattern binds. -/
  binds : List Char
  /-- The labels, without backticks. -/
  labels : List (List Char)
  /-- The entries of the property map. -/
  entries : List Entry
  deriving DecidableEq, Repr

/-- A query as written. -/
structure Statement where
  /-- The pattern of each `MATCH` clause. -/
  patterns : List PatternText
  /-- The variables behind `RETURN`. -/
  returns : List (List Char)
  deriving DecidableEq, Repr

namespace Probe

/-! ## Words, names and literals -/

/-- A part that no letter, digit or underscore may follow. -/
def alone {α : Type} (p : Probe α) : Probe α := do
  let x ← p
  notAhead isWordChar
  return x

/-- A keyword that is a rule. -/
def keyword (r : Rule) (word : String) : Probe Unit := rule r (alone (caseless word))

/-- A variable. -/
def variableName : Probe (List Char) := rule .variableName (run1 isWordChar)

/-- The characters of a rule between two given ones, with nothing else between. -/
def enclosed (k : Char) (p : Probe (List Char)) : Probe (List Char) := do
  char k
  let content ← p
  char k
  return content

/-- A name, between backticks or plain. -/
def name : Probe (List Char) :=
  orElse (enclosed backtick (rule .quotedName (run1 (· ≠ backtick))))
    (rule .plainName (run1 isWordChar))

/-- The characters of a string, between single or double quotes. -/
def quoted : Probe (List Char) := rule .stringLiteral <|
  orElse (enclosed '\'' (rule .singleQuoted (run (· ≠ '\''))))
    (enclosed '"' (rule .doubleQuoted (run (· ≠ '"'))))

/-- A truth value. -/
def truth : Probe Bool := rule .boolean <| alone <|
  orElse (do caseless "true"; return true) (do caseless "false"; return false)

/-- An integer. -/
def integer : Probe Literal := rule .integer <| alone do
  let minus ← optional (char '-')
  let digits ← run1 Decimal.isDigit
  return .integer minus.isSome digits

/-- A literal. -/
def literal : Probe Literal :=
  orElse (do return .text (← quoted)) (orElse (do return .boolean (← truth)) integer)

/-! ## Patterns -/

/-- A label behind its colon. -/
def nodeLabel : Probe (List Char) := behind ':' (rule .label name)

/-- One or more labels. -/
def nodeLabels : Probe (List (List Char)) := rule .nodeLabels (series nodeLabel nodeLabel)

/-- An entry of a property map. -/
def propertyEntry : Probe Entry := rule .propertyEntry do
  let key ← rule .propertyKey name
  blanks
  char ':'
  blanks
  let offset ← offset
  let literal ← literal
  return ⟨key, literal, offset⟩

/-- A property map. -/
def properties : Probe (List Entry) := rule .properties do
  char '\x7b'
  blanks
  let entries ← optional (series propertyEntry (behind ',' propertyEntry))
  blanks
  char '\x7d'
  return entries.getD []

/-- A node pattern. -/
def nodePattern : Probe PatternText := rule .nodePattern do
  char '('
  blanks
  let binds ← variableName
  blanks
  let labels ← optional nodeLabels
  blanks
  let entries ← optional properties
  blanks
  char ')'
  return ⟨binds, labels.getD [], entries.getD []⟩

/-! ## Clauses and statements -/

/-- A `MATCH` clause. -/
def matchClause : Probe PatternText := rule .matchClause do
  keyword .matchKeyword "match"
  blanks
  nodePattern

/-- A `RETURN` clause. -/
def returnClause : Probe (List (List Char)) := rule .returnClause do
  keyword .returnKeyword "return"
  blanks
  series variableName (behind ',' variableName)

/-- The clauses of a statement. -/
def query : Probe Statement := rule .query do
  let patterns ← series matchClause matchClause
  blanks
  let returns ← returnClause
  return ⟨patterns, returns⟩

/-- A whole statement, with nothing but blanks around it. -/
def statement : Probe Statement := rule .statement do
  blanks
  let statement ← query
  blanks
  rule .endOfInput finish
  return statement

end Probe

/-- Reads the text of a statement. -/
def Statement.read? (text : List Char) : Option Statement :=
  (Probe.statement.pass ⟨0, text⟩).map (·.1)

end PropertyGraph.Query
