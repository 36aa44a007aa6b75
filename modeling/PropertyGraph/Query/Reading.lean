import PropertyGraph.Query.Diagnosis
import PropertyGraph.Query.Plan
import PropertyGraph.Query.Statement
import PropertyGraph.Text.Place

/-!
# Reading queries

`Plan.read` turns a query text into a valid plan. Faults are found in a fixed order: a text that
is no statement has no other fault; then the entries of the property maps are looked through in
text order, each for a number out of range and then for a repeated key; then the plan as a whole
is validated.
-/

namespace PropertyGraph.Query

/-- Why a query has no answer. -/
inductive QueryError
  /-- The text is no statement. -/
  | malformed (diagnosis : Diagnosis)
  /-- A number is out of range. -/
  | invalidLiteral (written : String) (place : Text.Place) (excess : Decimal.Excess)
  /-- The text is a statement but no valid plan. -/
  | invalid (error : PlanError)
  /-- A graph refused a change. -/
  | graph (error : GraphError)
  deriving DecidableEq, Repr

/-- The error in words. -/
def QueryError.message : QueryError → String
  | malformed diagnosis => "Parse error: " ++ diagnosis.report
  | invalidLiteral written place excess =>
    s!"Invalid literal {written} at {place.text}: {excess.message}"
  | invalid error => s!"Validation error: {error.message}"
  | graph error => s!"Graph error: {error.message}"

/-- An integer literal as written. -/
def writeInteger (minus : Bool) (digits : List Char) : List Char :=
  if minus then '-' :: digits else digits

/-- The number that an integer literal denotes. -/
def denoted (minus : Bool) (digits : List Char) : Int :=
  if minus then -(Decimal.ofDigits digits : Int) else Decimal.ofDigits digits

namespace Statement

/-- The value that a literal at an offset of a text denotes. -/
def valueOf (text : List Char) (offset : Nat) : Literal → Except QueryError Value
  | .text content => .ok (.string (String.ofList content))
  | .boolean truth => .ok (.boolean truth)
  | .integer minus digits =>
    match Decimal.toInt64 (denoted minus digits) with
    | .ok number => .ok (.integer number)
    | .error excess =>
      .error (.invalidLiteral (String.ofList (writeInteger minus digits))
        (.after (text.take offset)) excess)

/-- Adds entries to a property map, none of which may repeat a key. -/
def propertiesOf (text : List Char) (binds : String) (done : PropertyMap) :
    List Entry → Except QueryError PropertyMap
  | [] => .ok done
  | e :: rest => do
    let value ← valueOf text e.offset e.literal
    let key := String.ofList e.key
    if done.contains key then .error (.invalid (.duplicateKey binds key))
    else propertiesOf text binds (done.insert key value) rest

/-- The pattern that a written pattern of a text denotes. -/
def patternOf (text : List Char) (p : PatternText) : Except QueryError Pattern := do
  let binds := String.ofList p.binds
  let properties ← propertiesOf text binds .empty p.entries
  return ⟨binds, p.labels.map String.ofList, properties⟩

/-- The plan that the statement of a text denotes. -/
def planOf (text : List Char) (s : Statement) : Except QueryError Plan := do
  let patterns ← s.patterns.mapM (patternOf text)
  return ⟨patterns.map (⟨[·]⟩), .ofList (s.returns.map String.ofList)⟩

end Statement

/-- Reads a query text as a valid plan. -/
def Plan.readChars (text : List Char) : Except QueryError Plan := do
  match Statement.read? text with
  | none => .error (.malformed (.of text))
  | some statement =>
    let plan ← statement.planOf text
    match plan.validate with
    | .ok () => .ok plan
    | .error error => .error (.invalid error)

/-- Reads a query text as a valid plan. -/
def Plan.read (text : String) : Except QueryError Plan := Plan.readChars text.toList

end PropertyGraph.Query
