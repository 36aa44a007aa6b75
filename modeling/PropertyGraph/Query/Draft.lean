import PropertyGraph.Query.Grammar
import PropertyGraph.Query.Reading

/-!
# Drafts

A draft is a query token by token: it says how each keyword, name and literal is spelled, and leaves
open where blanks are. `Draft.LaidOut` says which texts a draft may be laid out as, and
`Draft.Edited` how its tokens may be spelled otherwise without a change of what the query asks for.

A token of a draft is spelled in one of the ways that the language has, so that drafts which are no
queries cannot be made.
-/

namespace PropertyGraph.Query

/-! ## Names and literals -/

/-- A variable as spelled. -/
abbrev VariableDraft := { chars : List Char // Word chars }

/-- A label or key as spelled. -/
inductive NameDraft
  /-- A word as it is. -/
  | plain (chars : List Char) (word : Word chars)
  /-- Characters between backticks. -/
  | quoted (chars : List Char) (some : chars ≠ []) (inside : backtick ∉ chars)

namespace NameDraft

/-- The characters of a name, without backticks. -/
def chars : NameDraft → List Char
  | plain chars _ => chars
  | quoted chars _ _ => chars

/-- The token of a name. -/
def token : NameDraft → List Char
  | plain chars _ => chars
  | quoted chars _ _ => backtick :: chars ++ [backtick]

end NameDraft

/-- The keyword of a truth value. -/
def truthWord (truth : Bool) : String := if truth then "true" else "false"

/-- A literal as spelled. -/
inductive LiteralDraft
  /-- Characters between quotes of one of the two kinds. -/
  | text (quote : Char) (content : List Char) (kind : quote = '\'' ∨ quote = '"')
    (inside : quote ∉ content)
  /-- A truth value in some mixture of cases. -/
  | boolean (truth : Bool) (letters : List Char) (spelled : isKeyword (truthWord truth) letters)
  /-- Digits, behind a minus sign or not. -/
  | integer (minus : Bool) (digits : List Char) (some : digits ≠ [])
    (all : ∀ c ∈ digits, Decimal.isDigit c)

namespace LiteralDraft

/-- What is written. -/
def literal : LiteralDraft → Literal
  | text _ content _ _ => .text content
  | boolean truth _ _ => .boolean truth
  | integer minus digits _ _ => .integer minus digits

/-- The token of a literal. -/
def token : LiteralDraft → List Char
  | text quote content _ _ => quote :: content ++ [quote]
  | boolean _ letters _ => letters
  | integer minus digits _ _ => writeInteger minus digits

end LiteralDraft

/-! ## Patterns and queries -/

/-- An entry of a property map as spelled. -/
structure EntryDraft where
  /-- The key. -/
  key : NameDraft
  /-- The value. -/
  literal : LiteralDraft

/-- A node pattern as spelled. -/
structure PatternDraft where
  /-- The variable that the pattern binds. -/
  binds : VariableDraft
  /-- The labels. -/
  labels : List NameDraft
  /-- The entries of the property map, if there is one. -/
  entries : Option (List EntryDraft)

/-- A `MATCH` clause as spelled. -/
structure ClauseDraft where
  /-- The keyword. -/
  keyword : List Char
  /-- It is in some mixture of cases. -/
  spelled : isKeyword "match" keyword
  /-- The pattern. -/
  pattern : PatternDraft

/-- A query as spelled. -/
structure Draft where
  /-- The clauses. -/
  clauses : List ClauseDraft
  /-- There is a clause. -/
  some_clause : clauses ≠ []
  /-- The keyword behind the clauses. -/
  keyword : List Char
  /-- It is in some mixture of cases. -/
  spelled : isKeyword "return" keyword
  /-- The variables to return. -/
  returns : List VariableDraft
  /-- A variable is returned. -/
  some_return : returns ≠ []

/-! ## Tokens -/

/-- The tokens of things with commas between them. -/
def commas : List (List (List Char)) → List (List Char)
  | [] => []
  | first :: rest => first ++ rest.flatMap ([','] :: ·)

/-- The tokens of an entry. -/
def EntryDraft.tokens (e : EntryDraft) : List (List Char) := [e.key.token, [':'], e.literal.token]

/-- The tokens of a property map; none if it is left out. -/
def propertyTokens : Option (List EntryDraft) → List (List Char)
  | none => []
  | some entries => ['\x7b'] :: commas (entries.map EntryDraft.tokens) ++ [['\x7d']]

/-- The tokens of a pattern. -/
def PatternDraft.tokens (p : PatternDraft) : List (List Char) :=
  ['('] :: p.binds.1 :: p.labels.flatMap (fun l => [[':'], l.token]) ++ propertyTokens p.entries ++
    [[')']]

/-- The tokens of a clause. -/
def ClauseDraft.tokens (c : ClauseDraft) : List (List Char) := c.keyword :: c.pattern.tokens

namespace Draft

/-- The tokens up to `RETURN`. -/
def front (d : Draft) : List (List Char) := d.clauses.flatMap ClauseDraft.tokens ++ [d.keyword]

/-- The tokens behind `RETURN`. -/
def back (d : Draft) : List (List Char) := commas (d.returns.map fun v => [v.1])

end Draft

/-! ## Blanks -/

/-- Tokens one after the other, with blanks or nothing in front of each. -/
inductive Laid : List (List Char) → List Char → Prop
  | nil : Laid [] []
  | cons {w t tokens rest} : Gap w → Laid tokens rest → Laid (t :: tokens) (w ++ t ++ rest)

/-- **The texts of a draft**: blanks may stand between its tokens and at both ends, and must behind
`RETURN`. -/
inductive Draft.LaidOut (d : Draft) : List Char → Prop
  | mk {front u back x} : Laid d.front front → Gap u → u ≠ [] → Laid d.back back → Gap x →
    d.LaidOut (front ++ u ++ back ++ x)

/-! ## Edits -/

/-- One member of a list is changed. -/
inductive AtOne {α : Type} (change : α → α → Prop) : List α → List α → Prop
  | here {a b rest} : change a b → AtOne change (a :: rest) (b :: rest)
  | there {a as bs} : AtOne change as bs → AtOne change (a :: as) (a :: bs)

/-- Other ways of spelling a name. -/
inductive NameDraft.Edited : NameDraft → NameDraft → Prop
  /-- A word is put between backticks. -/
  | quote {chars word some inside} : Edited (plain chars word) (quoted chars some inside)
  /-- Backticks around a word are left out. -/
  | unquote {chars some inside word} : Edited (quoted chars some inside) (plain chars word)

/-- Other ways of spelling a literal. -/
inductive LiteralDraft.Edited : LiteralDraft → LiteralDraft → Prop
  /-- Other quotes are taken, which the content does not have. -/
  | quotes {quote quote' content kind inside kind' inside'} :
    Edited (text quote content kind inside) (text quote' content kind' inside')
  /-- The case of the letters of a truth value is changed. -/
  | cases {truth letters letters' spelled spelled'} :
    Edited (boolean truth letters spelled) (boolean truth letters' spelled')
  /-- Zeros are put in front of the digits. -/
  | zeros {minus digits some all} {n : Nat} {some' all'} :
    Edited (integer minus digits some all)
      (integer minus (List.replicate n '0' ++ digits) some' all')

/-- Other ways of spelling an entry. -/
inductive EntryDraft.Edited : EntryDraft → EntryDraft → Prop
  | key {key key' literal} : key.Edited key' → Edited ⟨key, literal⟩ ⟨key', literal⟩
  | literal {key literal literal'} : literal.Edited literal' →
    Edited ⟨key, literal⟩ ⟨key, literal'⟩

/-- Other ways of spelling a pattern. -/
inductive PatternDraft.Edited : PatternDraft → PatternDraft → Prop
  /-- A label is spelled otherwise. -/
  | label {binds labels labels' entries} : AtOne NameDraft.Edited labels labels' →
    Edited ⟨binds, labels, entries⟩ ⟨binds, labels', entries⟩
  /-- An entry is spelled otherwise. -/
  | entry {binds labels entries entries'} : AtOne EntryDraft.Edited entries entries' →
    Edited ⟨binds, labels, some entries⟩ ⟨binds, labels, some entries'⟩
  /-- The entries are put in another order. -/
  | order {binds labels entries entries'} : entries.Perm entries' →
    Edited ⟨binds, labels, some entries⟩ ⟨binds, labels, some entries'⟩

/-- Other ways of spelling a clause. -/
inductive ClauseDraft.Edited : ClauseDraft → ClauseDraft → Prop
  /-- The case of the letters of `MATCH` is changed. -/
  | keyword {keyword keyword' spelled spelled' pattern} :
    Edited ⟨keyword, spelled, pattern⟩ ⟨keyword', spelled', pattern⟩
  | pattern {keyword spelled pattern pattern'} : pattern.Edited pattern' →
    Edited ⟨keyword, spelled, pattern⟩ ⟨keyword, spelled, pattern'⟩

/-- **Other ways of spelling a query**: the case of a keyword or truth value is changed, backticks
around a word are put in or left out, other quotes are taken, zeros are put in front of a number, or
the entries of a property map are put in another order. -/
inductive Draft.Edited : Draft → Draft → Prop
  /-- A clause is spelled otherwise. -/
  | clause {clauses clauses' some some' keyword spelled returns some_return} :
    AtOne ClauseDraft.Edited clauses clauses' →
    Edited ⟨clauses, some, keyword, spelled, returns, some_return⟩
      ⟨clauses', some', keyword, spelled, returns, some_return⟩
  /-- The case of the letters of `RETURN` is changed. -/
  | keyword {clauses some keyword keyword' spelled spelled' returns some_return} :
    Edited ⟨clauses, some, keyword, spelled, returns, some_return⟩
      ⟨clauses, some, keyword', spelled', returns, some_return⟩

/-! ## What is kept -/

/-- **What a pattern keeps of its draft**, character by character. -/
structure PatternDraft.Kept (d : PatternDraft) (q : Pattern) : Prop where
  /-- The variable is as written. -/
  binds : q.binds = String.ofList d.binds.1
  /-- Labels are as they stand between backticks or without. -/
  labels : q.labels = d.labels.map fun l => String.ofList l.chars
  /-- So are keys. -/
  keys : ∀ k, k ∈ q.properties.keys ↔ ∃ e ∈ d.entries.getD [], String.ofList e.key.chars = k
  /-- A string is what stands between the quotes. -/
  strings : ∀ e ∈ d.entries.getD [], ∀ content, e.literal.literal = .text content →
    q.properties.get? (String.ofList e.key.chars) = some (.string (String.ofList content))

end PropertyGraph.Query
