import PropertyGraph.Graph.Saved
import PropertyGraph.Text.Blank

/-!
# The configuration

A `Config` names the graph, the dump to start from and the level of the log. Each field has a
default, so every choice of fields makes a configuration. The log level is kept as written and
only read when it is asked for (`Config.level`).
-/

namespace PropertyGraph

/-! ## Log levels -/

/-- How much goes into the log. -/
inductive LogLevel
  | error
  | warn
  | info
  | debug
  | trace
  deriving DecidableEq, Repr

namespace LogLevel

/-- All levels, from the one that logs least. -/
def all : List LogLevel := [error, warn, info, debug, trace]

/-- The name of a level. -/
def name : LogLevel → String
  | error => "error"
  | warn => "warn"
  | info => "info"
  | debug => "debug"
  | trace => "trace"

/-- The number of a level; the higher, the more is logged. -/
def number : LogLevel → Nat
  | error => 1
  | warn => 2
  | info => 3
  | debug => 4
  | trace => 5

/-- Whether a log kept at a level takes records of another level. -/
def admits (kept record : LogLevel) : Bool := record.number ≤ kept.number

/-- Reads a level: its name in any mixture of ASCII cases, or its number, which may have a plus
sign and leading zeros. -/
def ofText? (text : String) : Option LogLevel :=
  match Decimal.unsigned? text.toList with
  | some n => all.find? (·.number = n)
  | none => all.find? (·.name = asciiLower text)

end LogLevel

/-! ## Configurations -/

/-- What can be set from outside. -/
structure Config where
  /-- The name of the graph, shown in the log. -/
  name : String
  /-- The file with the dump to start from; without one the graph starts empty. -/
  dumpPath : Option String
  /-- How that dump is saved. -/
  dumpFormat : DumpFormat
  /-- The log level, as written. -/
  logLevel : String
  deriving DecidableEq, Repr

/-- Why there is no configuration, or none that makes sense. -/
inductive ConfigError
  /-- The file cannot be read. -/
  | unreadable (path reason : String)
  /-- The file holds no configuration. -/
  | malformed
  /-- No log level is written like this. -/
  | unknownLevel (text : String)
  deriving DecidableEq, Repr

/-- The error in words. -/
def ConfigError.message : ConfigError → String
  | unreadable path reason => s!"Failed to read config file {path}: {reason}"
  | malformed => "Invalid YAML config"
  | unknownLevel text => s!"Unknown log level: {text}"

namespace Config

/-- The configuration in which nothing has been set. -/
def default : Config := ⟨"draft", none, .json, "info"⟩

instance : Inhabited Config := ⟨default⟩

/-- The log level, white space around it left aside. -/
def level (c : Config) : Except ConfigError LogLevel :=
  match LogLevel.ofText? (String.ofList (Text.trim c.logLevel.toList)) with
  | some level => .ok level
  | none => .error (.unknownLevel c.logLevel)

/-- The fields that have been set. -/
structure Fields where
  /-- The name of the graph. -/
  name : Option String
  /-- The file to start from, which may be set to none. -/
  dumpPath : Option (Option String)
  /-- The format of that file. -/
  dumpFormat : Option DumpFormat
  /-- The log level. -/
  logLevel : Option String
  deriving DecidableEq, Repr

namespace Fields

/-- No field has been set. -/
def unset : Fields := ⟨none, none, none, none⟩

/-- The configuration with the fields that have been set; all others have their default. -/
def config (f : Fields) : Config where
  name := f.name.getD default.name
  dumpPath := f.dumpPath.getD default.dumpPath
  dumpFormat := f.dumpFormat.getD default.dumpFormat
  logLevel := f.logLevel.getD default.logLevel

end Fields

/-! ## As JSON -/

open Json (Reader Tree)

/-- A configuration as JSON. -/
def tree (c : Config) : Tree :=
  .object [("name", .string c.name),
    ("dump_path", match c.dumpPath with
      | some path => .string path
      | none => .null),
    ("dump_format", c.dumpFormat.tree), ("log_level", .string c.logLevel)]

/-- A configuration as a record of JSON. -/
def record : Reader.Record Fields Config where
  name := "EngineConfig"
  start := .unset
  fields := [
    { name := "name", required := false, given := (·.name.isSome)
      read := fun c => do return { c with name := some (← Reader.text "a string") } },
    { name := "dump_path", required := false, given := (·.dumpPath.isSome)
      read := fun c => do
        return { c with dumpPath := some (← Reader.optional (Reader.text "path string")) } },
    { name := "dump_format", required := false, given := (·.dumpFormat.isSome)
      read := fun c => do return { c with dumpFormat := some (← DumpFormat.reader) } },
    { name := "log_level", required := false, given := (·.logLevel.isSome)
      read := fun c => do return { c with logLevel := some (← Reader.text "a string") } }]
  finish := fun c => some c.config

/-- Reads a configuration from JSON. -/
def reader : Reader Config := record.read

end Config

end PropertyGraph
