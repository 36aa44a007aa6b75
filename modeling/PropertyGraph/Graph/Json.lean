import PropertyGraph.Graph.Layout
import PropertyGraph.Json.Reader
import PropertyGraph.Json.Tree

/-!
# Graphs as JSON

What nodes, edges, dumps and their parts look like as JSON: a `tree` for writing and a `reader`
for reading. Records are objects with their fields in a fixed order; on reading, fields may come
in any order, unknown ones are passed over, and a list of the fields will do as well. A value is
an object whose only key names its kind.

Reading the text of a layout gives the layout back, keys repeated in a property map included.
-/

namespace PropertyGraph

open Json

/-! ## Values and words -/

/-- A value as JSON. -/
def Value.tree (v : Value) : Tree :=
  .object [(v.kind.name, match v with
    | string text => .string text
    | integer number => .number number.toInt
    | boolean truth => .boolean truth
    | bytes payload => .list (payload.map fun b => .number b.toNat))]

/-- Reads what comes with the name of a kind. -/
def Value.payloadReader : Kind → Reader Value
  | .string => string <$> Reader.text "a string"
  | .integer => integer <$> Reader.int64
  | .boolean => boolean <$> Reader.boolean
  | .bytes => bytes <$> Reader.list Reader.byte

/-- Reads a value. -/
def Value.reader : Reader Value :=
  Reader.payloadVariant (Kind.all.map fun k => (k.name, payloadReader k))

/-- A kind as JSON. -/
def Kind.tree (k : Kind) : Tree := .string k.name

/-- Reads a kind; the short names are unknown here. -/
def Kind.reader : Reader Kind := Reader.bareVariant (Kind.all.map fun k => (k.name, k))

/-- The name of an end of an edge in JSON. -/
def Endpoint.key : Endpoint → String
  | source => "Source"
  | target => "Target"

/-- An end of an edge as JSON. -/
def Endpoint.tree (e : Endpoint) : Tree := .string e.key

/-- Reads an end of an edge. -/
def Endpoint.reader : Reader Endpoint :=
  Reader.bareVariant ([source, target].map fun e => (e.key, e))

/-- A property map as JSON. -/
def PropertyLayout.tree (properties : PropertyLayout) : Tree :=
  .object (properties.map fun e => (e.1, e.2.tree))

/-- Reads a property map. -/
def PropertyLayout.reader : Reader PropertyLayout := Reader.map Value.reader

/-- Reads a list of texts. -/
def readTexts : Reader (List String) := Reader.list (Reader.text "a string")

/-! ## Nodes -/

/-- A node as JSON. -/
def NodeLayout.tree (n : NodeLayout) : Tree :=
  .object [("uid", .string n.uid), ("label", .string n.label),
    ("properties", PropertyLayout.tree n.properties), ("in_edges", .texts n.inEdges),
    ("out_edges", .texts n.outEdges)]

/-- The fields of a node, as far as they have been read. -/
structure NodeFields where
  /-- The uid. -/
  uid : Option String
  /-- The label. -/
  label : Option String
  /-- The properties. -/
  properties : Option PropertyLayout
  /-- The edges that enter the node. -/
  inEdges : Option (List String)
  /-- The edges that leave the node. -/
  outEdges : Option (List String)

/-- A node as a record of JSON; adjacency lists that are missing are empty. -/
def NodeFields.record (name : String) : Reader.Record NodeFields NodeLayout where
  name := name
  start := ⟨none, none, none, none, none⟩
  fields := [
    { name := "uid", required := true, given := (·.uid.isSome)
      read := fun c => do return { c with uid := some (← Reader.text "a string") } },
    { name := "label", required := true, given := (·.label.isSome)
      read := fun c => do return { c with label := some (← Reader.text "a string") } },
    { name := "properties", required := true, given := (·.properties.isSome)
      read := fun c => do return { c with properties := some (← PropertyLayout.reader) } },
    { name := "in_edges", required := false, given := (·.inEdges.isSome)
      read := fun c => do return { c with inEdges := some (← readTexts) } },
    { name := "out_edges", required := false, given := (·.outEdges.isSome)
      read := fun c => do return { c with outEdges := some (← readTexts) } }]
  finish := fun c => do
    return ⟨← c.uid, ← c.label, ← c.properties, c.inEdges.getD [], c.outEdges.getD []⟩

/-- Reads a node as a dump lists it. -/
def NodeLayout.reader : Reader NodeLayout := (NodeFields.record "NodeRecord").read

/-- Reads a node whose adjacency lists are sets. -/
def Node.reader : Reader Node := NodeLayout.node <$> (NodeFields.record "Node").read

/-! ## Edges -/

/-- An edge as JSON. -/
def EdgeLayout.tree (e : EdgeLayout) : Tree :=
  .object [("uid", .string e.uid), ("source", .string e.source), ("label", .string e.label),
    ("target", .string e.target), ("properties", PropertyLayout.tree e.properties)]

/-- The fields of an edge, as far as they have been read. -/
structure EdgeFields where
  /-- The uid. -/
  uid : Option String
  /-- The node that the edge leaves. -/
  source : Option String
  /-- The label. -/
  label : Option String
  /-- The node that the edge enters. -/
  target : Option String
  /-- The properties. -/
  properties : Option PropertyLayout

/-- An edge as a record of JSON. -/
def EdgeFields.record (name : String) : Reader.Record EdgeFields EdgeLayout where
  name := name
  start := ⟨none, none, none, none, none⟩
  fields := [
    { name := "uid", required := true, given := (·.uid.isSome)
      read := fun c => do return { c with uid := some (← Reader.text "a string") } },
    { name := "source", required := true, given := (·.source.isSome)
      read := fun c => do return { c with source := some (← Reader.text "a string") } },
    { name := "label", required := true, given := (·.label.isSome)
      read := fun c => do return { c with label := some (← Reader.text "a string") } },
    { name := "target", required := true, given := (·.target.isSome)
      read := fun c => do return { c with target := some (← Reader.text "a string") } },
    { name := "properties", required := true, given := (·.properties.isSome)
      read := fun c => do return { c with properties := some (← PropertyLayout.reader) } }]
  finish := fun c => do
    return ⟨← c.uid, ← c.source, ← c.label, ← c.target, ← c.properties⟩

/-- Reads an edge as a dump lists it. -/
def EdgeLayout.reader : Reader EdgeLayout := (EdgeFields.record "EdgeRecord").read

/-- Reads an edge by itself. -/
def Edge.reader : Reader Edge := EdgeLayout.edge <$> (EdgeFields.record "Edge").read

/-! ## Dumps -/

/-- A dump as JSON. -/
def Layout.tree (l : Layout) : Tree :=
  .object [("nodes", .list (l.nodes.map NodeLayout.tree)),
    ("edges", .list (l.edges.map EdgeLayout.tree))]

/-- The fields of a dump, as far as they have been read. -/
structure DumpFields where
  /-- The nodes. -/
  nodes : Option (List NodeLayout)
  /-- The edges. -/
  edges : Option (List EdgeLayout)

/-- A dump as a record of JSON. -/
def DumpFields.record : Reader.Record DumpFields Layout where
  name := "GraphDump"
  start := ⟨none, none⟩
  fields := [
    { name := "nodes", required := true, given := (·.nodes.isSome)
      read := fun c => do return { c with nodes := some (← Reader.list NodeLayout.reader) } },
    { name := "edges", required := true, given := (·.edges.isSome)
      read := fun c => do return { c with edges := some (← Reader.list EdgeLayout.reader) } }]
  finish := fun c => do return ⟨← c.nodes, ← c.edges⟩

/-- Reads a dump. -/
def Layout.reader : Reader Layout := DumpFields.record.read

end PropertyGraph
