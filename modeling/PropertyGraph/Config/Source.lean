import PropertyGraph.Config.Document
import PropertyGraph.Files

/-!
# Where the configuration comes from

A configuration is kept in a file, which an environment variable names. Where the variable is not
set, or empty, the default configuration holds.
-/

namespace PropertyGraph.Config

/-- The environment variable that names the file with the configuration. -/
def variableName : String := "DRAFT_CONFIG"

/-- Reads the configuration in a file. -/
def ofFile (files : Files) (path : String) : Except ConfigError Config :=
  match files.text path with
  | .ok text => read text
  | .error fault => .error (.unreadable path fault.text)

/-- The file that the environment variable names. -/
def path? (setting : Option String) : Option String := setting.filter (· ≠ "")

/-- The configuration for a setting of the environment variable. -/
def ofEnvironment (files : Files) (setting : Option String) : Except ConfigError Config :=
  match path? setting with
  | some path => ofFile files path
  | none => .ok default

end PropertyGraph.Config
