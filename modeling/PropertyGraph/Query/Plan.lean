import PropertyGraph.Graph.Filter
import PropertyGraph.Query.Probe

/-!
# Query plans

A plan says which nodes a query asks for: node patterns, grouped by clause, and the variables to
return. A plan may be read from a text or built by hand; `Plan.validate` checks what every plan
that comes from a text satisfies. `Plan.text` writes a plan as a query.
-/

namespace PropertyGraph.Query

/-! ## Distinct texts -/

/-- Texts without repeats, in a definite order. -/
structure Distinct where
  /-- The texts in order. -/
  toList : List String
  /-- No text repeats. -/
  nodup : toList.Nodup
  deriving DecidableEq

theorem nodup_eraseDups (l : List String) : l.eraseDups.Nodup := by
  match l with
  | [] => exact .nil
  | a :: as =>
    rw [List.eraseDups_cons]
    exact List.nodup_cons.2 ⟨by simp, nodup_eraseDups _⟩
termination_by l.length
decreasing_by
  have := List.length_filter_le (fun b => !b == a) as
  simp only [List.length_cons]
  omega

/-- The listed texts in the order of their first occurrence. -/
def Distinct.ofList (texts : List String) : Distinct := ⟨texts.eraseDups, nodup_eraseDups texts⟩

/-! ## Patterns and plans -/

/-- What a node must be to match, and the variable that stands for it. -/
structure Pattern where
  /-- The variable that the pattern binds. -/
  binds : String
  /-- The labels that will do; a valid plan names one at most. -/
  labels : List String
  /-- The required properties. -/
  properties : PropertyMap
  deriving DecidableEq

namespace Pattern

/-- The first label, if one is named. -/
def label? (p : Pattern) : Option String := p.labels.head?

/-- The required properties by their canonical encoding. -/
def encoded (p : Pattern) : Table (List UInt8) := p.properties.map Value.encode

/-- The filter that selects the matching nodes. -/
def filter (p : Pattern) : Filter := ⟨p.labels, p.encoded⟩

/-- Whether every node matches for want of any requirement. -/
def isUnrestricted (p : Pattern) : Bool := p.labels.isEmpty && p.properties.isEmpty

end Pattern

/-- One `MATCH` clause. -/
structure Clause where
  /-- The patterns of the clause. -/
  patterns : List Pattern
  deriving DecidableEq

/-- What a query asks for. -/
structure Plan where
  /-- The clauses in query order. -/
  clauses : List Clause
  /-- The variables to return, in query order. -/
  returns : Distinct
  deriving DecidableEq

/-- Why a plan is not valid. -/
inductive PlanError
  /-- A variable is returned that no pattern binds. -/
  | unboundVariable (name : String)
  /-- A pattern names more than one label. -/
  | multipleLabels (binds : String) (labels : List String)
  /-- A property map repeats a key. -/
  | duplicateKey (binds key : String)
  deriving DecidableEq, Repr

/-- The error in words. -/
def PlanError.message : PlanError → String
  | unboundVariable name =>
    s!"Variable \x60{name}\x60 is returned but not bound by any MATCH clause"
  | multipleLabels binds labels =>
    s!"Pattern ({binds}) names {labels.length} labels, at most one is allowed"
  | duplicateKey binds key => s!"Pattern ({binds}) repeats property key \x60{key}\x60"

namespace Plan

/-- The patterns of all clauses. -/
def patterns (p : Plan) : List Pattern := p.clauses.flatMap (·.patterns)

/-- The variables that the patterns bind, in the order of their first occurrence. -/
def bound (p : Plan) : Distinct := .ofList (p.patterns.map (·.binds))

/-- Checks that no pattern names two labels and that each returned variable is bound. Of several
faults the first pattern with two labels comes first, then the first unbound variable. -/
def validate (p : Plan) : Except PlanError Unit :=
  match p.patterns.find? (fun q => 1 < q.labels.length) with
  | some q => .error (.multipleLabels q.binds q.labels)
  | none =>
    match p.returns.toList.find? (fun v => !p.bound.toList.contains v) with
    | some v => .error (.unboundVariable v)
    | none => .ok ()

end Plan

/-! ## Plans as query texts -/

/-- Texts with a separator between them. -/
def joinWith (separator : String) (parts : List (List Char)) : List Char :=
  separator.toList.intercalate parts

/-- Whether a name may stand in a query without backticks. -/
def isPlainName (name : List Char) : Bool := !name.isEmpty && name.all isWordChar

/-- A label or key as written in a query, between backticks unless it can do without. -/
def writeName (name : String) : List Char :=
  if isPlainName name.toList then name.toList
  else backtick :: name.toList ++ [backtick]

/-- An entry of a property map as written in a query. -/
def writeEntry (e : String × Value) : List Char :=
  writeName e.1 ++ ": ".toList ++ e.2.text.toList

/-- The property map of a pattern as written in a query; nothing at all if it is empty. -/
def writeProperties (properties : PropertyMap) : List Char :=
  if properties.isEmpty then []
  else " \x7b".toList ++ joinWith ", " (properties.toList.map writeEntry) ++ "\x7d".toList

/-- A pattern as written in a query. -/
def Pattern.write (p : Pattern) : List Char :=
  "(".toList ++ p.binds.toList ++ p.labels.flatMap (fun label => ':' :: writeName label) ++
    writeProperties p.properties ++ ")".toList

/-- A pattern as a text. -/
def Pattern.text (p : Pattern) : String := String.ofList p.write

/-- A clause as written in a query, with a blank behind it. -/
def Clause.write (c : Clause) : List Char :=
  "MATCH ".toList ++ joinWith ", " (c.patterns.map Pattern.write) ++ " ".toList

/-- A plan as written in a query. -/
def Plan.write (p : Plan) : List Char :=
  p.clauses.flatMap Clause.write ++ "RETURN ".toList ++
    joinWith ", " (p.returns.toList.map String.toList)

/-- A plan as a query text. -/
def Plan.text (p : Plan) : String := String.ofList p.write

end PropertyGraph.Query
