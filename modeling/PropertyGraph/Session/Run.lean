import PropertyGraph.Config.Source
import PropertyGraph.Query.Execution
import PropertyGraph.Session.Event

/-!
# Sessions

A session reads its configuration, starts from the dump named there, if one is, and answers query
after query, each from the same graph. It ends with the first step that fails.

What a session wants of the world around it is in a `Console`, and there is one course of a session
for all of them (`session`). At the console of the command line it is the program; at one that keeps
a record it is a function, which gives all that a session brings (`run`).
-/

namespace PropertyGraph.Session

open Query

/-- Why a session ends early. -/
inductive Failure
  /-- There is no configuration. -/
  | configuration (error : ConfigError)
  /-- The log level makes no sense. -/
  | level (error : ConfigError)
  /-- The file with the dump cannot be opened. -/
  | opening (path : String) (fault : FileFault)
  /-- The file with the dump cannot be read. -/
  | unreadable (format : DumpFormat) (path : String) (fault : FileFault)
  /-- The file does not hold a dump. -/
  | malformed (format : DumpFormat) (path : String) (error : StorageError)
  /-- The dump does not make a graph. -/
  | replaying (error : GraphError)
  /-- A query has no answer. -/
  | query (text : String) (error : QueryError)
  deriving DecidableEq

namespace Failure

/-- What could not be done, in words. -/
def message : Failure → String
  | configuration _ => "loading configuration"
  | level error => error.message
  | opening path _ => s!"opening dump {path}"
  | unreadable format path _ => s!"reading {format.name} dump {path}"
  | malformed format path _ => s!"reading {format.name} dump {path}"
  | replaying _ => "replaying dump"
  | query text _ => s!"query failed: {text}"

/-- Why it could not be done, in words. -/
def cause? : Failure → Option String
  | configuration error => some error.message
  | level _ => none
  | opening _ fault => some fault.text
  | unreadable _ _ fault => some fault.text
  | malformed _ _ error => some error.message
  | replaying error => some error.message
  | query _ error => some error.message

/-- The failure as reported at the end of a session. -/
def report (f : Failure) : String :=
  s!"Error: {f.message}" ++
    match f.cause? with
    | some cause => s!"\n\nCaused by:\n    {cause}"
    | none => ""

end Failure

/-- The result of a step, with what is worth telling of it. -/
abbrev Step (α : Type) := List Event × Except Failure α

/-- Reads the configuration and its log level. -/
def configure (files : Files) (setting : Option String) : Except Failure (Config × LogLevel) :=
  match Config.ofEnvironment files setting with
  | .error error => .error (.configuration error)
  | .ok config =>
    match config.level with
    | .error error => .error (.level error)
    | .ok level => .ok (config, level)

/-- Reads the dump in a file. -/
def readDump (files : Files) (format : DumpFormat) (path : String) : Except Failure Dump :=
  match files path with
  | .error fault =>
    .error (if fault.opens then .unreadable format path fault else .opening path fault)
  | .ok bytes =>
    match Dump.restore format bytes with
    | .ok dump => .ok dump
    | .error error => .error (.malformed format path error)

/-- Makes a graph from a dump. -/
def replayDump (dump : Dump) : Step Store :=
  let nodesLoaded := Event.nodesLoaded dump.nodes.length
  match Store.ofDump dump with
  | .ok s => ([nodesLoaded, .dumpLoaded dump.nodes.length dump.edges.length], .ok s)
  | .error error =>
    (if (Store.empty.loadNodes dump.nodes).1.isNone then [nodesLoaded] else [],
      .error (.replaying error))

/-- Makes the graph that a configuration asks for. -/
def openGraph (files : Files) (config : Config) : Step Store :=
  let started := Event.started config.name
  let made : Step Store := match config.dumpPath with
    | none => ([], .ok .empty)
    | some path =>
      match readDump files config.dumpFormat path with
      | .error failure => ([], .error failure)
      | .ok dump => replayDump dump
  match made with
  | (events, .ok s) => (started :: events ++ [.ready s.nodeCount s.edgeCount], .ok s)
  | (events, .error failure) => (started :: events, .error failure)

/-- Answers a query. -/
def answer (s : Store) (text : String) : Step Dump :=
  match Plan.read text with
  | .error error => ([.rejected text error], .error (.query text error))
  | .ok plan =>
    match plan.execute s with
    | .error error => ([.parsed plan], .error (.query text (.graph error)))
    | .ok result =>
      ([.parsed plan, .matched result.nodeCount s.nodeCount plan.patterns.length,
        .answered result.nodeCount], .ok result.dump)

/-- The events that a log level admits. -/
def told (level : LogLevel) (events : List Event) : List Event :=
  events.filter fun e => level.admits e.level

/-! ## The course of a session -/

/-- The world around a session. -/
structure Console (m : Type → Type) where
  /-- Reads the files at the given paths. -/
  files : List String → m Files
  /-- Takes a step, tells what the log level admits of it, and gives its result. The step comes as a
  function so that the time it takes can be measured. -/
  take {α : Type} : LogLevel → (Unit → Step α) → m (Except Failure α)
  /-- Prints the answer to a query. -/
  print : Dump → m Unit

section

variable {m : Type → Type} [Monad m]

/-- Answers queries in order, up to the first that has no answer. Gives the reason if there is one
of these. -/
def answerEach (console : Console m) (level : LogLevel) (s : Store) :
    List String → m (Option Failure)
  | [] => return none
  | text :: rest => do
    match ← console.take level fun _ => answer s text with
    | .error failure => return some failure
    | .ok dump =>
      console.print dump
      answerEach console level s rest

/-- **A whole session.** Gives the reason if it ends early. -/
def session (console : Console m) (setting : Option String) (queries : List String) :
    m (Option Failure) := do
  let files ← console.files (Config.path? setting).toList
  match configure files setting with
  | .error failure => return some failure
  | .ok (config, level) =>
    let files ← console.files config.dumpPath.toList
    match ← console.take level fun _ => openGraph files config with
    | .error failure => return some failure
    | .ok s => answerEach console level s queries

end

/-- The exit status of a session: one if it ended early, else zero. -/
def exitStatus (failure : Option Failure) : UInt32 := if failure.isSome then 1 else 0

/-! ## The record of a session -/

/-- What a session has brought. -/
structure Outcome where
  /-- The answers to the queries, as far as they have one, in order. -/
  answers : List Dump
  /-- What has been told. -/
  events : List Event
  /-- Why the session ended early, if it did. -/
  failure : Option Failure
  deriving DecidableEq

/-- A console that keeps a record of what is told and printed. -/
def Console.recording (files : Files) : Console (StateM Outcome) where
  files _ := return files
  take level step := do
    let (events, result) := step ()
    modify fun o => { o with events := o.events ++ told level events }
    return result
  print dump := modify fun o => { o with answers := o.answers ++ [dump] }

/-- What a whole session brings. -/
def run (files : Files) (setting : Option String) (queries : List String) : Outcome :=
  let (failure, o) := (session (.recording files) setting queries).run ⟨[], [], none⟩
  { o with failure := failure }

namespace Outcome

/-- What is printed: each answer as an indented JSON text. -/
def printed (o : Outcome) : List String := o.answers.map (Dump.text .indented)

/-- The exit status. -/
def status (o : Outcome) : UInt32 := exitStatus o.failure

end Outcome

end PropertyGraph.Session
