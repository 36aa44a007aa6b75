import PropertyGraph.Binary.Codec
import PropertyGraph.Graph.Layout

/-!
# Graphs in binary

The binary form of nodes, edges, dumps and their parts. Records are their fields in order; a
property map is a list of keys with their values, in the order of the layout.
-/

namespace PropertyGraph

open Binary

/-! ## Values -/

/-- The index of a kind among the kinds. -/
def Kind.index : Kind → Nat
  | string => 0
  | integer => 1
  | boolean => 2
  | bytes => 3

/-- What a value holds, in binary. -/
def Value.payloadBytes : Value → List UInt8
  | string text => writeText text
  | integer number => writeInt64 number
  | boolean truth => writeTruth truth
  | bytes payload => writeList writeByte payload

/-- A value in binary. -/
def Value.write (v : Value) : List UInt8 := writeVariant v.kind.index ++ v.payloadBytes

/-- Reads what a value of a kind holds. -/
def Value.readPayload : Kind → Reader Value
  | .string => string <$> readText
  | .integer => integer <$> readInt64
  | .boolean => boolean <$> readTruth
  | .bytes => bytes <$> readList readByte

/-- Reads a value. -/
def Value.read : Reader Value := readVariant (Kind.all.map readPayload)

/-- An entry of a property map in binary. -/
def writeProperty (e : String × Value) : List UInt8 := writeText e.1 ++ e.2.write

/-- Reads an entry of a property map. -/
def readProperty : Reader (String × Value) := do return (← readText, ← Value.read)

/-- A property map in binary. -/
def PropertyLayout.write (properties : PropertyLayout) : List UInt8 :=
  writeList writeProperty properties

/-- Reads a property map. -/
def PropertyLayout.read : Reader PropertyLayout := readList readProperty

/-! ## Records -/

/-- A node in binary. -/
def NodeLayout.write (n : NodeLayout) : List UInt8 :=
  writeText n.uid ++ writeText n.label ++ PropertyLayout.write n.properties ++
    writeList writeText n.inEdges ++ writeList writeText n.outEdges

/-- Reads a node. -/
def NodeLayout.read : Reader NodeLayout := do
  return ⟨← readText, ← readText, ← PropertyLayout.read, ← readList readText,
    ← readList readText⟩

/-- An edge in binary. -/
def EdgeLayout.write (e : EdgeLayout) : List UInt8 :=
  writeText e.uid ++ writeText e.source ++ writeText e.label ++ writeText e.target ++
    PropertyLayout.write e.properties

/-- Reads an edge. -/
def EdgeLayout.read : Reader EdgeLayout := do
  return ⟨← readText, ← readText, ← readText, ← readText, ← PropertyLayout.read⟩

/-- A dump in binary. -/
def Layout.write (l : Layout) : List UInt8 :=
  writeList NodeLayout.write l.nodes ++ writeList EdgeLayout.write l.edges

/-- Reads a dump. -/
def Layout.read : Reader Layout := do
  return ⟨← readList NodeLayout.read, ← readList EdgeLayout.read⟩

end PropertyGraph
