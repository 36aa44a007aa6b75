import PropertyGraph.Query.Statement

/-!
# The language of queries

What a query text says, rule by rule and without a word on how to find it out: `Denotes text s`
holds when the text is a way of writing the statement `s`. Blanks may stand between tokens, and
must between `RETURN` and the first variable; keywords and truth values may be in any mixture of
ASCII cases; and a name or string may be written in more than one way.

Every rule knows how many characters stand in front of what it describes, since a statement notes
where its literals are.
-/

namespace PropertyGraph.Query

/-- How something may be written behind a number of characters. -/
abbrev Written (α : Type) := Nat → List Char → α → Prop

variable {α : Type}

/-! ## Blanks and lists -/

/-- What may stand between tokens: blanks, or nothing. -/
def Gap (w : List Char) : Prop := ∀ c ∈ w, isSeparator c

/-- Something with blanks in front of it. -/
inductive Spaced (item : Written α) (start : Nat) : List Char → α → Prop
  | mk {w t a} : Gap w → item (start + w.length) t a → Spaced item start (w ++ t) a

/-- Something behind a given character, with blanks between. -/
inductive Behind (k : Char) (item : Written α) (start : Nat) : List Char → α → Prop
  | mk {w t a} : Gap w → item (start + (k :: w).length) t a → Behind k item start (k :: w ++ t) a

/-- Things one after the other. -/
inductive Listed (item : Written α) : Nat → List Char → List α → Prop
  | nil {start} : Listed item start [] []
  | cons {start t rest a as} : item start t a → Listed item (start + t.length) rest as →
    Listed item start (t ++ rest) (a :: as)

/-- Something and then others, with blanks between. -/
inductive Series (first next : Written α) (start : Nat) : List Char → List α → Prop
  | mk {t rest a as} : first start t a → Listed (Spaced next) (start + t.length) rest as →
    Series first next start (t ++ rest) (a :: as)

/-! ## Words, names and literals -/

/-- One or more letters, digits and underscores. -/
def Word (w : List Char) : Prop := w ≠ [] ∧ ∀ c ∈ w, isWordChar c

/-- A word, which stands for itself. -/
def WrittenWord : Written (List Char) := fun _ t word => Word t ∧ word = t

/-- The ways of writing a label or key. -/
inductive WrittenName (start : Nat) : List Char → List Char → Prop
  /-- A word stands for itself. -/
  | plain {name} : Word name → WrittenName start name name
  /-- Anything without backticks may stand between backticks. -/
  | quoted {name} : name ≠ [] → backtick ∉ name →
    WrittenName start (backtick :: name ++ [backtick]) name

/-- The ways of writing a literal. -/
inductive WrittenLiteral (start : Nat) : List Char → Literal → Prop
  /-- A text without the quote may stand between quotes, single or double. -/
  | text {quote content} : quote = '\'' ∨ quote = '"' → quote ∉ content →
    WrittenLiteral start (quote :: content ++ [quote]) (.text content)
  /-- The one truth value. -/
  | true {w} : isKeyword "true" w → WrittenLiteral start w (.boolean true)
  /-- The other truth value. -/
  | false {w} : isKeyword "false" w → WrittenLiteral start w (.boolean false)
  /-- Digits without a sign. -/
  | natural {digits} : digits ≠ [] → (∀ c ∈ digits, Decimal.isDigit c) →
    WrittenLiteral start digits (.integer Bool.false digits)
  /-- Digits behind a minus sign. -/
  | negative {digits} : digits ≠ [] → (∀ c ∈ digits, Decimal.isDigit c) →
    WrittenLiteral start ('-' :: digits) (.integer Bool.true digits)

/-! ## Property maps and labels -/

/-- The ways of writing an entry of a property map. -/
inductive WrittenEntry (start : Nat) : List Char → Entry → Prop
  | mk {k w v l key literal} : WrittenName start k key → Gap w → Gap v →
    WrittenLiteral (start + (k ++ w ++ ':' :: v).length) l literal →
    WrittenEntry start (k ++ w ++ ':' :: v ++ l)
      ⟨key, literal, start + (k ++ w ++ ':' :: v).length⟩

/-- The ways of writing one or more entries with commas between them. -/
def WrittenEntries : Written (List Entry) := Series WrittenEntry (Behind ',' WrittenEntry)

/-- The ways of writing a property map between its braces. -/
inductive WrittenProperties (start : Nat) : List Char → List Entry → Prop
  | empty {w} : Gap w → WrittenProperties start ('\x7b' :: w ++ ['\x7d']) []
  | entries {w t v es} : Gap w → WrittenEntries (start + ('\x7b' :: w).length) t es → Gap v →
    WrittenProperties start ('\x7b' :: w ++ t ++ v ++ ['\x7d']) es

/-- The ways of writing labels, each behind a colon. -/
def WrittenLabels : Written (List (List Char)) := Listed (Spaced (Behind ':' WrittenName))

/-! ## Clauses and statements -/

/-- The ways of writing a node pattern. The property map may be left out if it is empty. -/
inductive WrittenPattern (start : Nat) : List Char → PatternText → Prop
  | bare {w name ls v labels} : Gap w → Word name →
    WrittenLabels (start + ('(' :: w ++ name).length) ls labels → Gap v →
    WrittenPattern start ('(' :: w ++ name ++ ls ++ v ++ [')']) ⟨name, labels, []⟩
  | full {w name ls v ps x labels entries} : Gap w → Word name →
    WrittenLabels (start + ('(' :: w ++ name).length) ls labels → Gap v →
    WrittenProperties (start + ('(' :: w ++ name ++ ls ++ v).length) ps entries → Gap x →
    WrittenPattern start ('(' :: w ++ name ++ ls ++ v ++ ps ++ x ++ [')'])
      ⟨name, labels, entries⟩

/-- The ways of writing a `MATCH` clause. -/
inductive WrittenClause (start : Nat) : List Char → PatternText → Prop
  | mk {m u t p} : isKeyword "match" m → Gap u →
    WrittenPattern (start + (m ++ u).length) t p → WrittenClause start (m ++ u ++ t) p

/-- The ways of writing one or more `MATCH` clauses. -/
def WrittenClauses : Written (List PatternText) := Series WrittenClause WrittenClause

/-- The ways of writing one or more variables with commas between them. -/
def WrittenReturns : Written (List (List Char)) := Series WrittenWord (Behind ',' WrittenWord)

/-- The ways of writing a statement. -/
inductive Denotes : List Char → Statement → Prop
  | mk {w cs v r u rs x patterns returns} : Gap w → WrittenClauses w.length cs patterns → Gap v →
    isKeyword "return" r → Gap u → u ≠ [] →
    WrittenReturns (w ++ cs ++ v ++ r ++ u).length rs returns → Gap x →
    Denotes (w ++ cs ++ v ++ r ++ u ++ rs ++ x) ⟨patterns, returns⟩

end PropertyGraph.Query
