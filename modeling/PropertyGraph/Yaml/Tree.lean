import PropertyGraph.Yaml.Token

/-!
# Documents of YAML

A document is a scalar, a sequence or a mapping. `Document.read?` reads the only document of a
text. Where a value is missing, as behind a key with nothing to the right of its colon, the empty
plain scalar stands in for it.
-/

namespace PropertyGraph.Yaml

/-- What a document says. -/
inductive Tree
  /-- A scalar, and whether it is a plain one. -/
  | scalar (text : String) (plain : Bool)
  | sequence (items : List Tree)
  | mapping (entries : List (Tree × Tree))

namespace Tree

/-- What stands where nothing does. -/
def absent : Tree := scalar "" true

/-- Whether nothing stands there. -/
def isAbsent : Tree → Bool
  | scalar text plain => plain && text = ""
  | _ => false

/-- What a reader makes of the tokens that are left: a result and the tokens left behind it. -/
abbrev Reader (α : Type) := List Token → Option (α × List Token)

/-- Whether the next token is one of the given ones. -/
def before (stops : List Token) : List Token → Bool
  | [] => false
  | t :: _ => stops.contains t

mutual

/-- Reads a tree. Only in a block may it be a block itself, and only as the value of a block
mapping may it be a sequence whose dashes stand at the column of the keys. -/
def node : Nat → Bool → Bool → Reader Tree
  | 0, _, _, _ => none
  | fuel + 1, inBlock, dashes, tokens =>
    match tokens with
    | .scalar text plain :: rest => some (scalar text plain, rest)
    | .flowSequenceStart :: rest => do
      let (items, rest) ← flowItems fuel true rest
      return (sequence items, rest)
    | .flowMappingStart :: rest => do
      let (entries, rest) ← flowEntries fuel true rest
      return (mapping entries, rest)
    | .sequenceStart :: rest =>
      if inBlock then do
        let (items, rest) ← blockItems fuel rest
        return (sequence items, rest)
      else none
    | .mappingStart :: rest =>
      if inBlock then do
        let (entries, rest) ← blockEntries fuel rest
        return (mapping entries, rest)
      else none
    | .blockEntry :: rest =>
      if dashes then do
        let (items, rest) ← dashItems fuel (.blockEntry :: rest)
        return (sequence items, rest)
      else none
    | _ => none

/-- Reads a tree, or nothing in front of one of the given tokens. -/
def nodeUnless : Nat → List Token → Bool → Bool → Reader Tree
  | 0, _, _, _, _ => none
  | fuel + 1, stops, inBlock, dashes, tokens =>
    if before stops tokens then some (absent, tokens) else node fuel inBlock dashes tokens

/-- Reads the items of a block sequence up to its end. -/
def blockItems : Nat → Reader (List Tree)
  | 0, _ => none
  | fuel + 1, tokens =>
    match tokens with
    | .blockEntry :: rest => do
      let (item, rest) ← nodeUnless fuel [.blockEntry, .blockEnd] true false rest
      let (items, rest) ← blockItems fuel rest
      return (item :: items, rest)
    | .blockEnd :: rest => some ([], rest)
    | _ => none

/-- Reads the items of a sequence that is no block of its own. -/
def dashItems : Nat → Reader (List Tree)
  | 0, _ => none
  | fuel + 1, tokens =>
    match tokens with
    | .blockEntry :: rest => do
      let (item, rest) ←
        nodeUnless fuel [.blockEntry, .key, .value, .blockEnd] true false rest
      let (items, rest) ← dashItems fuel rest
      return (item :: items, rest)
    | _ => some ([], tokens)

/-- Reads the entries of a block mapping up to its end. -/
def blockEntries : Nat → Reader (List (Tree × Tree))
  | 0, _ => none
  | fuel + 1, tokens =>
    match tokens with
    | .key :: rest => do
      let (key, rest) ← nodeUnless fuel [.key, .value, .blockEnd] true true rest
      let (item, rest) ← match rest with
        | .value :: rest => nodeUnless fuel [.key, .value, .blockEnd] true true rest
        | _ => some (absent, rest)
      let (entries, rest) ← blockEntries fuel rest
      return ((key, item) :: entries, rest)
    | .blockEnd :: rest => some ([], rest)
    | _ => none

/-- Reads the value behind a key between brackets; there may be none. -/
def flowValue : Nat → Token → Reader Tree
  | 0, _, _ => none
  | fuel + 1, closing, tokens =>
    match tokens with
    | .value :: rest => nodeUnless fuel [.flowEntry, closing] false false rest
    | _ => some (absent, tokens)

/-- Reads the items of a sequence between brackets; one that is announced as a key is a mapping
with a single entry. An announcement with no key behind it takes the next sign with it. -/
def flowItems : Nat → Bool → Reader (List Tree)
  | 0, _, _ => none
  | fuel + 1, first, tokens =>
    match tokens with
    | .flowSequenceEnd :: rest => some ([], rest)
    | _ => do
      let tokens ← match first, tokens with
        | true, _ => some tokens
        | false, .flowEntry :: rest => some rest
        | false, _ => none
      match tokens with
      | .flowSequenceEnd :: rest => return ([], rest)
      | .key :: rest => do
        let (key, rest) ←
          if before [.value, .flowEntry, .flowSequenceEnd] rest then some (absent, rest.drop 1)
          else node fuel false false rest
        let (item, rest) ← flowValue fuel .flowSequenceEnd rest
        let (items, rest) ← flowItems fuel false rest
        return (mapping [(key, item)] :: items, rest)
      | _ => do
        let (item, rest) ← node fuel false false tokens
        let (items, rest) ← flowItems fuel false rest
        return (item :: items, rest)

/-- Reads the entries of a mapping between brackets; a key may come without a value. -/
def flowEntries : Nat → Bool → Reader (List (Tree × Tree))
  | 0, _, _ => none
  | fuel + 1, first, tokens =>
    match tokens with
    | .flowMappingEnd :: rest => some ([], rest)
    | _ => do
      let tokens ← match first, tokens with
        | true, _ => some tokens
        | false, .flowEntry :: rest => some rest
        | false, _ => none
      match tokens with
      | .flowMappingEnd :: rest => return ([], rest)
      | .key :: rest => do
        let (key, rest) ←
          nodeUnless fuel [.value, .flowEntry, .flowMappingEnd] false false rest
        let (item, rest) ← flowValue fuel .flowMappingEnd rest
        let (entries, rest) ← flowEntries fuel false rest
        return ((key, item) :: entries, rest)
      | _ => do
        let (key, rest) ← node fuel false false tokens
        let (entries, rest) ← flowEntries fuel false rest
        return ((key, absent) :: entries, rest)

end

end Tree

/-! ## Documents -/

/-- Reads the content of a document that has been announced; there may be none. -/
def content (fuel : Nat) : Tree.Reader Tree
  | [] => some (.absent, [])
  | tokens => Tree.nodeUnless fuel [.documentStart, .documentEnd] true false tokens

/-- Reads the only document of some tokens, which may be an empty one. -/
def document (tokens : List Token) : Option Tree := do
  let fuel := 3 * tokens.length + 3
  let (tree, rest) ← match tokens with
    | [] => some (.absent, [])
    | .documentStart :: rest => content fuel rest
    | _ => Tree.node fuel true false tokens
  if rest.all (· = .documentEnd) then return tree else none

/-- Whether a character may stand in a text at all: control characters may not. -/
def isPrintable (c : Char) : Bool :=
  let n := c.toNat
  n = 0x09 || n = 0x0A || n = 0x0D || (0x20 ≤ n && n ≤ 0x7E) || n = 0x85 ||
    (0xA0 ≤ n && n ≤ 0xD7FF) || (0xE000 ≤ n && n ≤ 0xFFFD) || 0x10000 ≤ n

/-- Reads the only document of a text. -/
def read? (text : List Char) : Option Tree := do
  if !text.all isPrintable then none
  else document (← Token.scan? text)

end PropertyGraph.Yaml
