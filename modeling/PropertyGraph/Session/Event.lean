import PropertyGraph.Config.Basic
import PropertyGraph.Query.Reading
import PropertyGraph.Text.Lines

/-!
# The log of a session

What is worth telling while a graph is loaded and queried. An `Event` has a level, the part of the
program that it belongs to, and a message, into which the time that has passed may go.
-/

namespace PropertyGraph.Session

open Query

/-- The version of the program. -/
def version : String := "0.3.0"

/-- Something worth telling. -/
inductive Event
  /-- The program has started, with the graph of this name. -/
  | started (name : String)
  /-- All nodes of a dump have been added. -/
  | nodesLoaded (nodes : Nat)
  /-- All of a dump has been added. -/
  | dumpLoaded (nodes edges : Nat)
  /-- The graph can be queried. -/
  | ready (nodes edges : Nat)
  /-- A query has been read. -/
  | parsed (plan : Plan)
  /-- A query cannot be read. -/
  | rejected (text : String) (error : QueryError)
  /-- A plan has been matched against all nodes. -/
  | matched (selected scanned patterns : Nat)
  /-- A query has been answered. -/
  | answered (nodes : Nat)
  deriving DecidableEq

namespace Event

/-- How important an event is. -/
def level : Event → LogLevel
  | started _ | dumpLoaded _ _ | ready _ _ => .info
  | nodesLoaded _ | parsed _ | rejected _ _ | matched _ _ _ | answered _ => .debug

/-- The part of the program that tells of an event. -/
def target : Event → String
  | started _ | ready _ _ => "draftgraph"
  | nodesLoaded _ | dumpLoaded _ _ => "draftgraph::graph::dump"
  | parsed _ | rejected _ _ | answered _ => "draftgraph::query"
  | matched _ _ _ => "draftgraph::query::executor"

/-- An event in words; `elapsed` is the time that it took. -/
def message (elapsed : String) : Event → String
  | started name => s!"Draft Graph v{version} ({name})"
  | nodesLoaded nodes => s!"Loaded {nodes} nodes"
  | dumpLoaded nodes edges => s!"Loaded {nodes} nodes and {edges} edges in {elapsed}"
  | ready nodes edges => s!"Graph ready: {nodes} nodes, {edges} edges"
  | parsed plan => s!"Parsed query in {elapsed}: {plan.text}"
  | rejected text error => s!"Rejected query {Text.quoted text}: {error.message}"
  | matched selected scanned patterns =>
    s!"Matched {selected} of {scanned} nodes across {patterns} patterns"
  | answered nodes => s!"Executed query in {elapsed}, {nodes} nodes matched"

/-- A character as it goes into the log: what could control a terminal is escaped. -/
def logChar (c : Char) : List Char :=
  if c = '\x1b' then "\\x1b".toList
  else if c = '\x07' then "\\x07".toList
  else if c = '\x08' then "\\x08".toList
  else if c = '\x0c' then "\\x0c".toList
  else if c = '\x7f' then "\\x7f".toList
  else if 0x80 ≤ c.toNat && c.toNat ≤ 0x9F then Text.numberedEscape c
  else [c]

/-- What the log says of an event. -/
def text (elapsed : String) (e : Event) : String :=
  String.ofList ((e.message elapsed).toList.flatMap logChar)

/-- The lines of the log that tell of an event. -/
def lines (elapsed : String) (e : Event) : List String := Text.lines (e.text elapsed)

end Event

end PropertyGraph.Session
