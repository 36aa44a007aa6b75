import PropertyGraph.Graph.History

/-!
# Ledgers

A `Ledger` writes down nodes and edges and nothing else. What edges are at a node is found by
going through all of them, which is slow but cannot go wrong: there is nothing to keep in step.
It takes the same requests as a `Store` and says what a store should respond.
-/

namespace PropertyGraph

/-- What is written down of a node. -/
structure Description where
  /-- The node's label. -/
  label : String
  /-- The node's properties. -/
  properties : PropertyMap
  deriving DecidableEq

/-- What is written down of an edge. -/
structure Connection where
  /-- The uid of the node that the edge leaves. -/
  source : String
  /-- The edge's label. -/
  label : String
  /-- The uid of the node that the edge enters. -/
  target : String
  /-- The edge's properties. -/
  properties : PropertyMap
  deriving DecidableEq

/-- What there is to write down of an edge besides its uid. -/
def Edge.connection (e : Edge) : Connection := ⟨e.source, e.label, e.target, e.properties⟩

/-- The edge with a uid that makes a connection. -/
def Connection.edge (c : Connection) (uid : String) : Edge :=
  ⟨uid, c.source, c.label, c.target, c.properties⟩

/-- Nodes and edges by uid. -/
structure Ledger where
  /-- The nodes. -/
  nodes : Table Description
  /-- The edges. -/
  edges : Table Connection
  deriving DecidableEq

namespace Ledger

/-- The ledger in which nothing has been written. -/
def empty : Ledger := ⟨.empty, .empty⟩

/-- **Look-ups decide a ledger.** -/
theorem ext_get? {l l' : Ledger} (nodes : ∀ u, l.nodes.get? u = l'.nodes.get? u)
    (edges : ∀ x, l.edges.get? x = l'.edges.get? x) : l = l' := by
  show Ledger.mk l.nodes l.edges = Ledger.mk l'.nodes l'.edges
  rw [Table.ext_get? nodes, Table.ext_get? edges]

/-! ## Looking things up -/

/-- All edges, by ascending uid. -/
def allEdges (l : Ledger) : List Edge := l.edges.toList.map fun e => e.2.edge e.1

/-- The edges that enter a node, by ascending uid. -/
def entering (l : Ledger) (uid : String) : List Edge := l.allEdges.filter (·.endsAt uid)

/-- The edges that leave a node, by ascending uid. -/
def leaving (l : Ledger) (uid : String) : List Edge := l.allEdges.filter (·.startsFrom uid)

/-- The number of edge ends at a node. -/
def ends (l : Ledger) (uid : String) : Nat :=
  (l.leaving uid).length + (l.entering uid).length

/-- A described node with the edges at it. -/
def describe (l : Ledger) (uid : String) (d : Description) : Node :=
  ⟨uid, d.label, d.properties, .ofTexts ((l.entering uid).map (·.uid)),
    .ofTexts ((l.leaving uid).map (·.uid))⟩

/-- All nodes, by ascending uid. -/
def allNodes (l : Ledger) : List Node := l.nodes.toList.map fun e => l.describe e.1 e.2

/-- The node with this uid. -/
def node (l : Ledger) (uid : String) : Except GraphError Node :=
  match l.nodes.get? uid with
  | some d => .ok (l.describe uid d)
  | none => .error (.nodeNotFound uid)

/-- The edge with this uid. -/
def edge (l : Ledger) (uid : String) : Except GraphError Edge :=
  match l.edges.get? uid with
  | some c => .ok (c.edge uid)
  | none => .error (.edgeNotFound uid)

/-- The edges that enter a node of the ledger. -/
def inEdges (l : Ledger) (uid : String) : Except GraphError (List Edge) :=
  if l.nodes.contains uid then .ok (l.entering uid) else .error (.nodeNotFound uid)

/-- The edges that leave a node of the ledger. -/
def outEdges (l : Ledger) (uid : String) : Except GraphError (List Edge) :=
  if l.nodes.contains uid then .ok (l.leaving uid) else .error (.nodeNotFound uid)

/-- Counts nodes and edges, in all and by label. -/
def statistics (l : Ledger) : Store.Statistics where
  nodeCount := l.nodes.size
  edgeCount := l.edges.size
  labelCounts := Store.tally (l.nodes.values.map (·.label))
  edgeLabelCounts := Store.tally (l.edges.values.map (·.label))

/-- Replies to a question. -/
def tell (l : Ledger) : Question → Except GraphError Reply
  | .hasNode uid => .ok (.truth (l.nodes.contains uid))
  | .node uid => .node <$> l.node uid
  | .nodes => .ok (.nodes l.allNodes)
  | .nodesBy f => .ok (.nodes (l.allNodes.filter f.acceptsNode))
  | .nodeCount => .ok (.count l.nodes.size)
  | .hasEdge uid => .ok (.truth (l.edges.contains uid))
  | .edge uid => .edge <$> l.edge uid
  | .edges => .ok (.edges l.allEdges)
  | .edgesBy f => .ok (.edges (l.allEdges.filter f.acceptsEdge))
  | .edgeCount => .ok (.count l.edges.size)
  | .inEdges uid => .edges <$> l.inEdges uid
  | .outEdges uid => .edges <$> l.outEdges uid
  | .statistics => .ok (.statistics l.statistics)
  | .isEmpty => .ok (.truth (l.nodes.size = 0))
  | .dump => .ok (.dump ⟨l.allNodes.map ListedNode.ofNode, l.allEdges⟩)

/-! ## Writing things down -/

/-- Writes down a node. -/
def addNode (l : Ledger) (uid label : String) (properties : PropertyMap) :
    Except GraphError Ledger :=
  if l.nodes.contains uid then .error (.nodeAlreadyExists uid)
  else .ok { l with nodes := l.nodes.insert uid ⟨label, properties⟩ }

/-- Writes down an edge between two nodes of the ledger. -/
def addEdge (l : Ledger) (e : Edge) : Except GraphError Ledger :=
  if !l.nodes.contains e.source then .error (.missingEndpoint .source e.source)
  else if !l.nodes.contains e.target then .error (.missingEndpoint .target e.target)
  else if l.edges.contains e.uid then .error (.edgeAlreadyExists e.uid)
  else .ok { l with edges := l.edges.insert e.uid e.connection }

/-- Writes down what a dump lists, nodes first, up to the first refusal. -/
def load (l : Ledger) (d : Dump) : Except GraphError Loaded × Ledger :=
  match replay (fun l n => l.addNode n.uid n.label n.properties) l d.nodes with
  | (some e, l) => (.error e, l)
  | (none, l) =>
    match replay addEdge l d.edges with
    | (some e, l) => (.error e, l)
    | (none, l) => (.ok ⟨d.nodes.length, d.edges.length⟩, l)

/-- Makes a call. -/
def call (l : Ledger) : Call → Except GraphError Answer × Ledger
  | .addNode uid label properties =>
    match l.addNode uid label properties with
    | .ok l => (.node <$> l.node uid, l)
    | .error e => (.error e, l)
  | .updateNode replacement =>
    if l.nodes.contains replacement.uid then
      let l := { l with
        nodes := l.nodes.insert replacement.uid ⟨replacement.label, replacement.properties⟩ }
      (.node <$> l.node replacement.uid, l)
    else (.error (.nodeNotFound replacement.uid), l)
  | .removeNode uid =>
    if !l.nodes.contains uid then (.error (.nodeNotFound uid), l)
    else if l.ends uid ≠ 0 then (.error (.nodeHasEdges uid (l.ends uid)), l)
    else (.ok .done, { l with nodes := l.nodes.erase uid })
  | .addEdge e =>
    match l.addEdge e with
    | .ok l => (.ok (.edge e), l)
    | .error refusal => (.error refusal, l)
  | .removeEdge uid =>
    (.ok (.found (l.edges.contains uid)), { l with edges := l.edges.erase uid })
  | .load d => let (result, l) := l.load d; (result.map .loaded, l)

/-- What the requests of a list get, in order; a question changes nothing. -/
def responses (l : Ledger) : List Request → List Response
  | [] => []
  | .change c :: rest => .changed (l.call c).1 :: responses (l.call c).2 rest
  | .tell q :: rest => .told (l.tell q) :: responses l rest

end Ledger

end PropertyGraph
