import PropertyGraph.Graph.Dump

/-!
# Dumps laid out

A property map has no order, but a written dump lists the entries of each map one after the
other. A `Layout` is a dump with that order chosen: `Dump.layout` chooses ascending keys, and
`Layout.dump` forgets the order again (`Layout.dump_layout`). A layout that has been read may also
repeat keys; the last entry of a key counts.
-/

namespace PropertyGraph

/-- A property map as a list of entries. -/
abbrev PropertyLayout := List (String × Value)

/-- A node with its properties in a definite order. -/
structure NodeLayout where
  /-- Identifies the node. -/
  uid : String
  /-- The node's label. -/
  label : String
  /-- The node's properties, in order. -/
  properties : PropertyLayout
  /-- The uids of the edges that enter the node, as listed. -/
  inEdges : List String
  /-- The uids of the edges that leave the node, as listed. -/
  outEdges : List String
  deriving DecidableEq

/-- An edge with its properties in a definite order. -/
structure EdgeLayout where
  /-- Identifies the edge. -/
  uid : String
  /-- The uid of the node that the edge leaves. -/
  source : String
  /-- How the two nodes are related. -/
  label : String
  /-- The uid of the node that the edge enters. -/
  target : String
  /-- The edge's properties, in order. -/
  properties : PropertyLayout
  deriving DecidableEq

/-- A dump with every property map in a definite order. -/
structure Layout where
  /-- The nodes. -/
  nodes : List NodeLayout
  /-- The edges. -/
  edges : List EdgeLayout
  deriving DecidableEq

/-! ## Choosing an order -/

/-- A listed node with its properties by ascending key. -/
def ListedNode.layout (n : ListedNode) : NodeLayout :=
  ⟨n.uid, n.label, n.properties.toList, n.inEdges, n.outEdges⟩

/-- A node with its properties by ascending key. -/
def Node.layout (n : Node) : NodeLayout := (ListedNode.ofNode n).layout

/-- An edge with its properties by ascending key. -/
def Edge.layout (e : Edge) : EdgeLayout :=
  ⟨e.uid, e.source, e.label, e.target, e.properties.toList⟩

/-- A dump with all properties by ascending key. -/
def Dump.layout (d : Dump) : Layout := ⟨d.nodes.map ListedNode.layout, d.edges.map Edge.layout⟩

/-! ## Forgetting the order -/

/-- The node as a dump lists it. -/
def NodeLayout.listed (n : NodeLayout) : ListedNode :=
  ⟨n.uid, n.label, .ofList n.properties, n.inEdges, n.outEdges⟩

/-- The node whose adjacency is what the layout lists. -/
def NodeLayout.node (n : NodeLayout) : Node :=
  ⟨n.uid, n.label, .ofList n.properties, .ofTexts n.inEdges, .ofTexts n.outEdges⟩

/-- The edge that is laid out. -/
def EdgeLayout.edge (e : EdgeLayout) : Edge :=
  ⟨e.uid, e.source, e.label, e.target, .ofList e.properties⟩

/-- The dump that is laid out. -/
def Layout.dump (l : Layout) : Dump := ⟨l.nodes.map NodeLayout.listed, l.edges.map EdgeLayout.edge⟩

theorem NodeLayout.listed_layout (n : ListedNode) : n.layout.listed = n := by
  simp [listed, ListedNode.layout]

theorem EdgeLayout.edge_layout (e : Edge) : e.layout.edge = e := by
  simp [edge, Edge.layout]

/-- **A layout shows what it was made from.** -/
theorem Layout.dump_layout (d : Dump) : d.layout.dump = d := by
  obtain ⟨nodes, edges⟩ := d
  simp only [dump, Dump.layout, List.map_map]
  congr 1
  · exact List.map_id'' NodeLayout.listed_layout nodes
  · exact List.map_id'' EdgeLayout.edge_layout edges

end PropertyGraph
