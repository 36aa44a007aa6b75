import PropertyGraph.Yaml.Scalar

/-!
# Tokens of YAML

The scalars and signs of a document in order. Where a block starts or ends is told by columns
alone, so the tokens for that are made up on the way; and that a scalar is a key shows only at the
colon behind it, so the token for that is put in front of the scalar afterwards. For this the
scanner remembers at each depth of brackets where the last possible key started.

YAML has more tokens than these. Anchors, aliases, tags, scalars in block style and directives are
refused, so that fewer texts are read than are well formed (`Scan.refused`).
-/

namespace PropertyGraph.Yaml

/-- A token of a document. -/
inductive Token
  | documentStart
  | documentEnd
  /-- A block sequence starts. -/
  | sequenceStart
  /-- A block mapping starts. -/
  | mappingStart
  /-- A block ends. -/
  | blockEnd
  /-- An entry of a block sequence. -/
  | blockEntry
  | flowSequenceStart
  | flowSequenceEnd
  | flowMappingStart
  | flowMappingEnd
  /-- A comma between brackets. -/
  | flowEntry
  /-- A key follows. -/
  | key
  /-- A value follows. -/
  | value
  /-- A scalar, and whether it is a plain one. -/
  | scalar (text : String) (plain : Bool)
  deriving DecidableEq, Repr

/-- Where something starts that may turn out to be a key. -/
structure PossibleKey where
  /-- Whether it must turn out to be one. -/
  required : Bool
  /-- How many tokens stand in front of it. -/
  position : Nat
  /-- Its first character. -/
  start : Sign
  deriving DecidableEq, Repr

/-- How far the scanner has come. -/
structure Scan where
  /-- The signs that are left. -/
  rest : List Sign
  /-- The columns of the open blocks, the innermost first. -/
  indents : List Nat
  /-- Whether a key may start here. -/
  keyAllowed : Bool
  /-- The last possible key at each depth of brackets, the innermost first. -/
  keys : List (Option PossibleKey)
  /-- The tokens so far, the last one first. -/
  tokens : List Token
  /-- How many tokens there are so far. -/
  count : Nat
  deriving DecidableEq, Repr

namespace Scan

/-- The state in front of a text. -/
def ofText (text : List Char) : Scan := ⟨locate text, [], true, [none], [], 0⟩

/-- Whether the scanner is between brackets. -/
def inFlow (s : Scan) : Bool := !s.keys.tail.isEmpty

/-- Whether the innermost open block lies left of a column. -/
def deeper (s : Scan) (column : Nat) : Bool := s.indents.head?.all (· < column)

/-- Adds a token. -/
def emit (t : Token) (s : Scan) : Scan := { s with tokens := t :: s.tokens, count := s.count + 1 }

/-- Adds a token behind the first `position` ones. -/
def emitAt (position : Nat) (t : Token) (s : Scan) : Scan :=
  let behind := s.count - position
  { s with tokens := s.tokens.take behind ++ t :: s.tokens.drop behind, count := s.count + 1 }

/-! ## Blocks -/

/-- Opens a block at a column unless it is open; its token goes behind the first `position`
ones. Between brackets there are no blocks. -/
def openBlock (column position : Nat) (t : Token) (s : Scan) : Scan :=
  if s.inFlow || !s.deeper column then s
  else { s.emitAt position t with indents := column :: s.indents }

/-- Closes the blocks for which a test holds, from the innermost on. -/
def closeBlocks (closes : Nat → Bool) (s : Scan) : Scan :=
  if s.inFlow then s
  else
    let closed := s.indents.takeWhile closes
    { s with
      indents := s.indents.dropWhile closes
      tokens := closed.map (fun _ => Token.blockEnd) ++ s.tokens
      count := s.count + closed.length }

/-! ## Keys -/

/-- Gives up the possible key at this depth, unless it must be one. -/
def dropKey (s : Scan) : Option Scan :=
  match s.keys with
  | some k :: outer => if k.required then none else some { s with keys := none :: outer }
  | _ => some s

/-- Notes that what starts here may be a key. It must be one if it stands at the column of the
innermost block. -/
def saveKey (g : Sign) (s : Scan) : Option Scan :=
  if s.keyAllowed then do
    let s ← s.dropKey
    let required := !s.inFlow && s.indents.head? = some g.column
    return { s with keys := some ⟨required, s.count, g⟩ :: s.keys.tail }
  else some s

/-- The possible key for a colon: a key takes one line and at most 1024 bytes. -/
def keyFor (colon : Sign) (s : Scan) : Option (Option PossibleKey) :=
  match s.keys with
  | some k :: _ =>
    if k.start.line = colon.line && colon.offset ≤ k.start.offset + 1024 then some (some k)
    else if k.required then none
    else some none
  | _ => some none

/-! ## Steps -/

/-- Reads a mark at which a document starts or ends. -/
def documentMark (t : Token) (tail : List Sign) (s : Scan) : Option Scan := do
  let s ← (s.closeBlocks fun _ => true).dropKey
  return { s.emit t with rest := tail.drop 2, keyAllowed := false }

/-- Reads an opening bracket. -/
def openFlow (t : Token) (g : Sign) (tail : List Sign) (s : Scan) : Option Scan := do
  let s ← s.saveKey g
  return { s.emit t with rest := tail, keyAllowed := true, keys := none :: s.keys }

/-- Reads a closing bracket. -/
def closeFlow (t : Token) (tail : List Sign) (s : Scan) : Option Scan := do
  let s ← s.dropKey
  let keys := if s.inFlow then s.keys.tail else s.keys
  return { s.emit t with rest := tail, keyAllowed := false, keys := keys }

/-- Reads a comma. -/
def comma (tail : List Sign) (s : Scan) : Option Scan := do
  let s ← s.dropKey
  return { s.emit .flowEntry with rest := tail, keyAllowed := true }

/-- Reads the dash of a sequence. -/
def dash (g : Sign) (tail : List Sign) (s : Scan) : Option Scan :=
  if !s.inFlow && !s.keyAllowed then none
  else do
    let s ← (s.openBlock g.column s.count .sequenceStart).dropKey
    return { s.emit .blockEntry with rest := tail, keyAllowed := true }

/-- Reads a question mark, which announces a key. -/
def question (g : Sign) (tail : List Sign) (s : Scan) : Option Scan :=
  if !s.inFlow && !s.keyAllowed then none
  else do
    let s ← (s.openBlock g.column s.count .mappingStart).dropKey
    return { s.emit .key with rest := tail, keyAllowed := !s.inFlow }

/-- Reads a colon, which makes a key of what stands in front of it. -/
def colon (g : Sign) (tail : List Sign) (s : Scan) : Option Scan := do
  match ← s.keyFor g with
  | some k =>
    let s := (s.emitAt k.position .key).openBlock k.start.column k.position .mappingStart
    return { s.emit .value with rest := tail, keyAllowed := false, keys := none :: s.keys.tail }
  | none =>
    if !s.inFlow && !s.keyAllowed then none
    else
      let s := s.openBlock g.column s.count .mappingStart
      return { s.emit .value with rest := tail, keyAllowed := !s.inFlow }

/-- Reads a quoted scalar. -/
def quoted (g : Sign) (tail : List Sign) (s : Scan) : Option Scan := do
  let s ← s.saveKey g
  let (text, rest) ← readQuoted g.char tail
  return { s.emit (.scalar (String.ofList text) false) with rest := rest, keyAllowed := false }

/-- Reads a plain scalar. A key may follow it on a later line only. -/
def plain (g : Sign) (tail : List Sign) (s : Scan) : Option Scan := do
  let s ← s.saveKey g
  let limit := (s.indents.head?.map (· + 1)).getD 0
  let (text, broken, rest) ← readPlain s.inFlow limit (g :: tail)
  return { s.emit (.scalar (String.ofList text) true) with rest := rest, keyAllowed := broken }

/-- The characters that start no token that is known here. Some of them start one in YAML: an
anchor, an alias, a tag, a scalar in block style or a directive. -/
def refused : List Char := ['#', '&', '*', '!', '|', '>', '%', '@', '\x60', '\t']

/-- Reads one token that starts at a sign. -/
def step (g : Sign) (tail : List Sign) (s : Scan) : Option Scan :=
  if isDocumentMark '-' (g :: tail) then s.documentMark .documentStart tail
  else if isDocumentMark '.' (g :: tail) then s.documentMark .documentEnd tail
  else if g.char = '[' then s.openFlow .flowSequenceStart g tail
  else if g.char = '\x7b' then s.openFlow .flowMappingStart g tail
  else if g.char = ']' then s.closeFlow .flowSequenceEnd tail
  else if g.char = '\x7d' then s.closeFlow .flowMappingEnd tail
  else if g.char = ',' then s.comma tail
  else if g.char = '-' && atEdge tail then s.dash g tail
  else if g.char = '?' && (s.inFlow || atEdge tail) then s.question g tail
  else if g.char = ':' && (s.inFlow || atEdge tail) then s.colon g tail
  else if g.char = '\'' || g.char = '"' then s.quoted g tail
  else if refused.contains g.char then none
  else s.plain g tail

/-- The mark of byte order. -/
def byteOrderMark : Char := '\ufeff'

/-- Passes over blanks, comments and line breaks, and over a mark of byte order at the start of a
line, which takes a column all the same. Outside of brackets a key may start in a new line; where
one may start, tabs are not passed over. -/
def passBlanks (inFlow : Bool) : Bool → Bool → List Sign → Bool × List Sign
  | keyAllowed, _, [] => (keyAllowed, [])
  | keyAllowed, inComment, s :: rest =>
    if isBreak s.char then passBlanks inFlow (keyAllowed || !inFlow) false rest
    else if s.char = byteOrderMark && s.column = 0 then passBlanks inFlow keyAllowed false rest
    else if inComment || s.char = ' ' || (s.char = '\t' && (inFlow || !keyAllowed)) then
      passBlanks inFlow keyAllowed inComment rest
    else if s.char = '#' then passBlanks inFlow keyAllowed true rest
    else (keyAllowed, s :: rest)

/-- Reads the tokens that are left, `fuel` at most. -/
def run : Nat → Scan → Option (List Token)
  | 0, _ => none
  | fuel + 1, s => do
    let (keyAllowed, rest) := passBlanks s.inFlow s.keyAllowed false s.rest
    let s := { s with keyAllowed := keyAllowed, rest := rest }
    match rest with
    | [] => return (← (s.closeBlocks fun _ => true).dropKey).tokens.reverse
    | g :: tail => run fuel (← (s.closeBlocks fun c => g.column < c).step g tail)

end Scan

/-- The tokens of a text. -/
def Token.scan? (text : List Char) : Option (List Token) :=
  (Scan.ofText text).run (text.length + 1)

end PropertyGraph.Yaml
