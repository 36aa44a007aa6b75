import PropertyGraph.Config.Basic
import PropertyGraph.Yaml.Tree

/-!
# Configurations as documents

A configuration is read from a YAML mapping whose keys are the names of the fields. Keys that no
field has are passed over, whatever their values are. A text of nothing but white space and an
empty document set no field.

Not all of YAML is read: see `read`.
-/

namespace PropertyGraph.Config

open Yaml (Tree)

/-- Reads a text; every scalar is one. -/
def textOf? : Tree → Option String
  | .scalar text _ => some text
  | _ => none

/-- The plain scalars that stand for nothing. -/
def nulls : List String := ["", "~", "null", "Null", "NULL"]

/-- Reads a text or nothing. -/
def optionalText? : Tree → Option (Option String)
  | .scalar text plain => some (if plain && nulls.contains text then none else some text)
  | _ => none

/-- Sets a field that has not been set. -/
def Fields.set? (f : Fields) (key : String) (value : Tree) : Option Fields :=
  if key = "name" then
    if f.name.isSome then none else do return { f with name := some (← textOf? value) }
  else if key = "dump_path" then
    if f.dumpPath.isSome then none
    else do return { f with dumpPath := some (← optionalText? value) }
  else if key = "dump_format" then
    if f.dumpFormat.isSome then none
    else do return { f with dumpFormat := some (← DumpFormat.ofName? (← textOf? value)) }
  else if key = "log_level" then
    if f.logLevel.isSome then none else do return { f with logLevel := some (← textOf? value) }
  else some f

/-- Reads the fields that a document sets. -/
def Fields.ofTree? : Tree → Option Fields
  | .mapping entries =>
    entries.foldlM (fun f e => do f.set? (← textOf? e.1) e.2) .unset
  | tree => if tree.isAbsent then some .unset else none

/-- Reads a configuration. Fewer texts are read than there are well-formed ones in YAML: a scalar in
block style (`|` or `>`), an anchor or an alias (`&` or `*`), a tag (`!`) and a directive (`%`) have
no token here, so a text with one of them is taken for a malformed one, even where it would set a
field to what another text can say. -/
def read (text : String) : Except ConfigError Config :=
  if Text.isBlank text.toList then .ok default
  else
    match (Yaml.read? text.toList).bind Fields.ofTree? with
    | some fields => .ok fields.config
    | none => .error .malformed

end PropertyGraph.Config
