import PropertyGraph.Query.Statement
import PropertyGraph.Text.Place

/-!
# Where a query text goes wrong

When a text is no statement, the reader of the query wants to know where it stops being one and
what could have stood there. `Diagnosis.of` takes that from the books that the rules of the
language keep while they are tried: the farthest place where a rule was tried in vain, and which
rules those were.
-/

namespace PropertyGraph.Query

/-- Where a text stops being a statement. -/
structure Diagnosis where
  /-- The place. -/
  place : Text.Place
  /-- The line that the place is on. -/
  line : List Char
  /-- The rules that could have gone on from there. -/
  expected : List Rule
  deriving DecidableEq, Repr

namespace Diagnosis

/-- Finds where a text stops being a statement. -/
def of (text : List Char) : Diagnosis :=
  let attempts := Probe.statement.attempts ⟨0, text⟩ ⟨0, []⟩
  ⟨Text.Place.after (text.take attempts.offset), Text.lineAt text attempts.offset,
    Rule.all.filter attempts.rules.contains⟩

/-- A list in words. -/
def enumerate : List String → String
  | [] => ""
  | [a] => a
  | [a, b] => s!"{a} or {b}"
  | names => ", ".intercalate names.dropLast ++ ", or " ++ names.getLast?.getD ""

/-- The diagnosis in words: the line with a pointer at the place, and what was expected there. -/
def report (d : Diagnosis) : String :=
  let number := toString d.place.line
  let margin := String.ofList (List.replicate number.length ' ')
  let ahead := (d.line.take (d.place.column - 1)).map (fun c => if c = '\t' then c else ' ')
  "\n".intercalate
    [s!"{margin}--> {d.place.text}",
      s!"{margin} |",
      s!"{number} | " ++ String.ofList d.line,
      s!"{margin} | " ++ String.ofList ahead ++ "^---",
      s!"{margin} |",
      s!"{margin} = expected " ++ enumerate (d.expected.map Rule.name)]

end Diagnosis

end PropertyGraph.Query
