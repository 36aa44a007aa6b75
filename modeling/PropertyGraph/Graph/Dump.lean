import PropertyGraph.Graph.Store

/-!
# Dumps

A dump lists every node of a graph, with the uids of the edges at it, and every edge.
`Store.dump` lists them by ascending uid. `Store.load` replays a dump: first each node is added,
then each edge, and the first refusal ends it. The adjacency lists of a dump are for readers
only; adding the edges notes them anew.
-/

namespace PropertyGraph

/-- A node as a dump lists it, with the edges at it as a list. -/
structure ListedNode where
  /-- Identifies the node. -/
  uid : String
  /-- The node's label. -/
  label : String
  /-- The node's properties. -/
  properties : PropertyMap
  /-- The uids of the edges that enter the node, as listed. -/
  inEdges : List String
  /-- The uids of the edges that leave the node, as listed. -/
  outEdges : List String
  deriving DecidableEq

/-- A node as a dump lists it. -/
def ListedNode.ofNode (n : Node) : ListedNode :=
  ⟨n.uid, n.label, n.properties, n.inEdges.members, n.outEdges.members⟩

/-- The contents of a graph as lists. -/
structure Dump where
  /-- The nodes. -/
  nodes : List ListedNode
  /-- The edges. -/
  edges : List Edge
  deriving DecidableEq

/-- The dump that lists nothing. -/
def Dump.empty : Dump := ⟨[], []⟩

/-- How much a load has added. -/
structure Loaded where
  /-- The number of nodes. -/
  nodes : Nat
  /-- The number of edges. -/
  edges : Nat
  deriving DecidableEq, Repr

/-- Makes one change after the other, up to the first that is refused. The answer is that
refusal, if there is one, and what the changes in front of it have made. -/
def replay {σ α : Type} (change : σ → α → Except GraphError σ) : σ → List α → Option GraphError × σ
  | s, [] => (none, s)
  | s, a :: rest =>
    match change s a with
    | .error e => (some e, s)
    | .ok s => replay change s rest

namespace Store

/-- Lists the contents of a graph by ascending uid. -/
def dump (s : Store) : Dump :=
  ⟨s.nodes.values.map ListedNode.ofNode, s.edges.values⟩

/-- Adds the listed nodes, up to the first that is refused. -/
def loadNodes (s : Store) (nodes : List ListedNode) : Option GraphError × Store :=
  replay (fun s n => (·.2) <$> s.addNode n.uid n.label n.properties) s nodes

/-- Adds the listed edges, up to the first that is refused. -/
def loadEdges (s : Store) (edges : List Edge) : Option GraphError × Store :=
  replay (fun s e => (·.2) <$> s.addEdge e) s edges

/-- Adds what a dump lists, nodes first, up to the first refusal. What was added in front of a
refusal stays. -/
def load (s : Store) (d : Dump) : Except GraphError Loaded × Store :=
  match s.loadNodes d.nodes with
  | (some e, s) => (.error e, s)
  | (none, s) =>
    match s.loadEdges d.edges with
    | (some e, s) => (.error e, s)
    | (none, s) => (.ok ⟨d.nodes.length, d.edges.length⟩, s)

/-- The graph that a dump lists. -/
def ofDump (d : Dump) : Except GraphError Store :=
  match empty.load d with
  | (.ok _, s) => .ok s
  | (.error e, _) => .error e

end Store

end PropertyGraph
