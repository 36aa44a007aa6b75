/-!
# Lines of a text

How a text falls into lines when it is shown. A line ends with a line feed, and a carriage return
right in front of that belongs to the line end too.
-/

namespace PropertyGraph.Text

/-- A line without the carriage return that its end may begin with. -/
def chomp (line : List Char) : List Char :=
  if line.getLast? = some '\r' then line.dropLast else line

/-- The lines of a text with a line end behind it. -/
def lines (s : String) : List String :=
  (s.splitOn "\n").map fun line => String.ofList (chomp line.toList)

end PropertyGraph.Text
