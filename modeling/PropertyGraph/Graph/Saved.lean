import PropertyGraph.Graph.Binary
import PropertyGraph.Graph.Json

/-!
# Saved dumps

A dump is saved in one of two formats: as JSON text in UTF-8, or in binary. `Layout.save` writes
one and `Dump.restore` reads it back. A JSON text must be the whole of what is read, while binary
says by itself where it ends and whatever stands behind it is left alone.
-/

namespace PropertyGraph

/-- How a dump is saved. -/
inductive DumpFormat
  | json
  | binary
  deriving DecidableEq, Repr

namespace DumpFormat

/-- The name of a format. -/
def name : DumpFormat → String
  | json => "json"
  | binary => "binary"

/-- All formats. -/
def all : List DumpFormat := [json, binary]

/-- The format with a name. -/
def ofName? (name : String) : Option DumpFormat := all.find? (·.name = name)

/-- A format as JSON. -/
def tree (f : DumpFormat) : Json.Tree := .string f.name

/-- Reads a format from JSON. -/
def reader : Json.Reader DumpFormat := Json.Reader.bareVariant (all.map fun f => (f.name, f))

end DumpFormat

/-- Why a dump cannot be saved or restored. -/
inductive StorageError
  | json (error : Json.Error)
  | binary (error : Binary.Error)
  deriving DecidableEq, Repr

/-- The error in words. -/
def StorageError.message : StorageError → String
  | json error => s!"JSON error: {error.message}"
  | binary error => s!"Binary encoding error: {error.message}"

/-! ## Saving -/

/-- A dump as JSON text. -/
def Layout.text (style : Json.Style) (l : Layout) : List Char := l.tree.write style

/-- A dump in a format; JSON is compact. -/
def Layout.save (l : Layout) : DumpFormat → List UInt8
  | .json => Utf8.encode (l.text .compact)
  | .binary => l.write

/-- A dump as JSON text. -/
def Dump.text (style : Json.Style) (d : Dump) : String := String.ofList (d.layout.text style)

/-- The error when a buffer is too small for a dump. -/
def DumpFormat.bufferFull : DumpFormat → StorageError
  | json => .json .bufferFull
  | binary => .binary .bufferFull

/-- Saves a dump in a buffer of a given size. -/
def Layout.saveWithin (l : Layout) (format : DumpFormat) (size : Nat) :
    Except StorageError (List UInt8) :=
  let bytes := l.save format
  if bytes.length ≤ size then .ok bytes else .error format.bufferFull

/-! ## Restoring -/

/-- Restores a dump from the bytes of a JSON text. -/
def Dump.restoreJson (bytes : List UInt8) : Except Json.Error Dump :=
  Layout.dump <$> Layout.reader.all bytes

/-- Restores a dump from binary, and gives the bytes behind it. -/
def Dump.restoreBinary (bytes : List UInt8) : Except Binary.Error (Dump × List UInt8) :=
  (fun (l, rest) => (l.dump, rest)) <$> Layout.read bytes

/-- Restores a dump that was saved in a format. -/
def Dump.restore (format : DumpFormat) (bytes : List UInt8) : Except StorageError Dump :=
  match format with
  | .json => (restoreJson bytes).mapError .json
  | .binary => ((restoreBinary bytes).mapError .binary).map (·.1)

end PropertyGraph
