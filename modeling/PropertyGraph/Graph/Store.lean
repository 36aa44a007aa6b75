import PropertyGraph.Graph.Filter

/-!
# The graph store

A `Store` keeps nodes and edges in two tables, each under its own uid, and notes at every node
which edges enter and leave it. A change either succeeds, with its answer and the new store, or
is refused with a `GraphError` and changes nothing.

Only `addEdge` and `removeEdge` touch adjacency; `updateNode` keeps what is noted whatever the
replacement carries.

The tables are gone through by ascending uid. Any other order would do as well, as far as listings
are sorted by uid in the end (`Store.Reachable.same_in_any_order`).
-/

namespace PropertyGraph

/-- A graph. -/
structure Store where
  /-- The nodes by uid. -/
  nodes : Table Node
  /-- The edges by uid. -/
  edges : Table Edge
  deriving DecidableEq

namespace Store

/-- The graph without nodes and edges. -/
def empty : Store := ⟨.empty, .empty⟩

instance : Inhabited Store := ⟨empty⟩

/-! ## Nodes -/

/-- Whether there is a node with this uid. -/
def hasNode (s : Store) (uid : String) : Bool := s.nodes.contains uid

/-- The node with this uid. -/
def node (s : Store) (uid : String) : Except GraphError Node :=
  match s.nodes.get? uid with
  | some n => .ok n
  | none => .error (.nodeNotFound uid)

/-- Adds a node that no edge touches. -/
def addNode (s : Store) (uid label : String) (properties : PropertyMap) :
    Except GraphError (Node × Store) :=
  if s.hasNode uid then .error (.nodeAlreadyExists uid)
  else
    let n := Node.isolated uid label properties
    .ok (n, { s with nodes := s.nodes.insert uid n })

/-- Replaces label and properties of the node with the replacement's uid. -/
def updateNode (s : Store) (replacement : Node) : Except GraphError (Node × Store) :=
  match s.nodes.get? replacement.uid with
  | none => .error (.nodeNotFound replacement.uid)
  | some n =>
    let n := n.overwrite replacement
    .ok (n, { s with nodes := s.nodes.insert replacement.uid n })

/-- Removes a node that no edge touches. -/
def removeNode (s : Store) (uid : String) : Except GraphError Store :=
  match s.nodes.get? uid with
  | none => .error (.nodeNotFound uid)
  | some n =>
    if n.degree ≠ 0 then .error (.nodeHasEdges uid n.degree)
    else .ok { s with nodes := s.nodes.erase uid }

/-- The nodes that a filter selects, by ascending uid. -/
def nodesBy (s : Store) (f : Filter) : List Node := s.nodes.values.filter f.acceptsNode

/-! ## Edges -/

/-- Whether there is an edge with this uid. -/
def hasEdge (s : Store) (uid : String) : Bool := s.edges.contains uid

/-- The edge with this uid. -/
def edge (s : Store) (uid : String) : Except GraphError Edge :=
  match s.edges.get? uid with
  | some e => .ok e
  | none => .error (.edgeNotFound uid)

/-- The graph with an edge written into it and noted at both its nodes. -/
def link (s : Store) (e : Edge) : Store where
  nodes := (s.nodes.adjust e.source (·.attachOut e.uid)).adjust e.target (·.attachIn e.uid)
  edges := s.edges.insert e.uid e

/-- The graph with an edge taken out of it and forgotten at both its nodes. -/
def unlink (s : Store) (uid : String) (e : Edge) : Store where
  nodes := (s.nodes.adjust e.source (·.detachOut uid)).adjust e.target (·.detachIn uid)
  edges := s.edges.erase uid

/-- Adds an edge between two nodes of the graph and notes it at both. -/
def addEdge (s : Store) (e : Edge) : Except GraphError (Edge × Store) :=
  if !s.hasNode e.source then .error (.missingEndpoint .source e.source)
  else if !s.hasNode e.target then .error (.missingEndpoint .target e.target)
  else if s.hasEdge e.uid then .error (.edgeAlreadyExists e.uid)
  else .ok (e, s.link e)

/-- Removes the edge with this uid, if there is one, and forgets it at both its nodes. The answer
is whether there was one. -/
def removeEdge (s : Store) (uid : String) : Bool × Store :=
  match s.edges.get? uid with
  | none => (false, s)
  | some e => (true, s.unlink uid e)

/-- The edges that a filter selects, by ascending uid. -/
def edgesBy (s : Store) (f : Filter) : List Edge := s.edges.values.filter f.acceptsEdge

/-- The edges with the given uids, in that order. -/
def resolve (s : Store) (uids : List String) : List Edge := uids.filterMap s.edges.get?

/-- The edges that enter a node, by ascending uid. -/
def inEdges (s : Store) (uid : String) : Except GraphError (List Edge) := do
  return s.resolve (← s.node uid).inEdges.members

/-- The edges that leave a node, by ascending uid. -/
def outEdges (s : Store) (uid : String) : Except GraphError (List Edge) := do
  return s.resolve (← s.node uid).outEdges.members

/-! ## The whole graph -/

/-- The number of nodes. -/
def nodeCount (s : Store) : Nat := s.nodes.size

/-- The number of edges. -/
def edgeCount (s : Store) : Nat := s.edges.size

/-- Whether there is no node. -/
def isEmpty (s : Store) : Bool := s.nodes.isEmpty

/-- How often each text occurs in a list. -/
def tally (labels : List String) : Table Nat :=
  labels.foldl (fun t label => t.insert label ((t.get? label).getD 0 + 1)) .empty

/-- A summary of what a graph holds. -/
structure Statistics where
  /-- The number of nodes. -/
  nodeCount : Nat
  /-- The number of edges. -/
  edgeCount : Nat
  /-- The number of nodes with each label. -/
  labelCounts : Table Nat
  /-- The number of edges with each label. -/
  edgeLabelCounts : Table Nat
  deriving DecidableEq

/-- Counts nodes and edges, in all and by label. -/
def statistics (s : Store) : Statistics where
  nodeCount := s.nodeCount
  edgeCount := s.edgeCount
  labelCounts := tally (s.nodes.values.map (·.label))
  edgeLabelCounts := tally (s.edges.values.map (·.label))

end Store

end PropertyGraph
