import PropertyGraph.Text.Utf8

/-!
# Files

A file is read by path, and reading it gives its bytes or the reason why there are none. A
`FileTree` is a set of files below one directory, with paths taken from there. Nothing is known of
the directories outside but that they are there.
-/

namespace PropertyGraph

/-- Why there is nothing to read at a path. -/
inductive FileFault
  /-- Nothing is there. -/
  | missing
  /-- The path leads through a file as if it were a directory. -/
  | throughFile
  /-- A directory is there. -/
  | directory
  /-- The path, or a name in it, is longer than any can be. -/
  | tooLong
  /-- The path has a character in it that no path can have. -/
  | nulInside
  /-- The file is there, but it is no text in UTF-8. -/
  | notText
  /-- Anything else that keeps the file from being read. -/
  | other (reason : String)
  deriving DecidableEq, Repr

namespace FileFault

/-- The reason in words. -/
def text : FileFault → String
  | missing => "No such file or directory (os error 2)"
  | throughFile => "Not a directory (os error 20)"
  | directory => "Is a directory (os error 21)"
  | tooLong => "File name too long (os error 36)"
  | nulInside => "file name contained an unexpected NUL byte"
  | notText => "stream did not contain valid UTF-8"
  | other reason => reason

/-- Whether a file can be opened in spite of the fault, which shows in reading only. -/
def opens : FileFault → Bool
  | directory | notText => true
  | _ => false

end FileFault

/-- What reading the file at each path gives. -/
abbrev Files := String → Except FileFault (List UInt8)

/-- Reads a file as a text. -/
def Files.text (files : Files) (path : String) : Except FileFault String := do
  match Utf8.toString? (← files path) with
  | some text => .ok text
  | none => .error .notText

/-! ## Paths -/

/-- The names in a path, in order. One that ends with a slash asks for what is inside. -/
def pathParts (path : String) : List String :=
  (path.splitOn "/").filter (· ≠ "") ++ if path.endsWith "/" then ["."] else []

/-- The most bytes that a path can have. -/
def longestPath : Nat := 4095

/-- The most bytes that a name can have. -/
def longestName : Nat := 255

/-! ## Files below a directory -/

/-- A file or directory. -/
inductive FileEntry
  | file (bytes : List UInt8)
  | directory
  deriving DecidableEq, Repr

/-- The files below a directory, each with the names on the way to it. -/
structure FileTree where
  /-- The files and directories; of two at one place the first counts. -/
  entries : List (List String × FileEntry)

/-- A place that a path can lead to. -/
inductive Spot
  /-- What is reached by these names from the directory on. -/
  | inside (parts : List String)
  /-- A directory that is not below it. -/
  | outside
  deriving DecidableEq, Repr

namespace FileTree

/-- The files at the given paths; of two at one place the last counts. -/
def ofList (entries : List (String × FileEntry)) : FileTree :=
  ⟨entries.reverse.map fun e => ((pathParts e.1).filter (· ≠ "."), e.2)⟩

/-- What is reached by some names. Whatever holds something is a directory. -/
def entry? (t : FileTree) (parts : List String) : Option FileEntry :=
  match t.entries.find? (·.1 = parts) with
  | some e => some e.2
  | none =>
    if parts.isEmpty || t.entries.any (fun e => parts.isPrefixOf e.1) then some .directory
    else none

/-- What is at a place. -/
def entryAt? (t : FileTree) : Spot → Option FileEntry
  | .inside parts => t.entry? parts
  | .outside => some .directory

/-- The place above. -/
def parentOf : Spot → Spot
  | .inside [] | .outside => .outside
  | .inside parts => .inside parts.dropLast

/-- The place that a name leads to, if it leads anywhere. -/
def child? (t : FileTree) (name : String) : Spot → Option Spot
  | .inside parts =>
    if (t.entry? (parts ++ [name])).isSome then some (.inside (parts ++ [name])) else none
  | .outside => none

/-- Follows one name from a place. -/
def step (t : FileTree) (spot : Spot) (name : String) : Except FileFault Spot :=
  match t.entryAt? spot with
  | none => .error .missing
  | some (.file _) => .error .throughFile
  | some .directory =>
    if name = "." then .ok spot
    else if name = ".." then .ok (parentOf spot)
    else if longestName < name.utf8ByteSize then .error .tooLong
    else
      match t.child? name spot with
      | some spot => .ok spot
      | none => .error .missing

/-- Follows a path. -/
def follow (t : FileTree) (path : String) : Except FileFault Spot :=
  (pathParts path).foldlM t.step (if path.startsWith "/" then .outside else .inside [])

/-- Reads the file at a path. -/
def read (t : FileTree) : Files := fun path => do
  if path.contains '\x00' then throw .nulInside
  if path = "" then throw .missing
  if longestPath < path.utf8ByteSize then throw .tooLong
  match t.entryAt? (← t.follow path) with
  | none => throw .missing
  | some .directory => throw .directory
  | some (.file bytes) => return bytes

end FileTree

end PropertyGraph
