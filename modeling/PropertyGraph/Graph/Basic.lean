import PropertyGraph.Value

/-!
# Nodes and edges

A node has a uid chosen by its owner, one label, properties, and the uids of the edges that
enter and leave it. An edge has a uid, a source, a label, a target and properties; any number of
edges may agree in source, label and target.
-/

namespace PropertyGraph

/-- The end of an edge that a node is named for. -/
inductive Endpoint
  | source
  | target
  deriving DecidableEq, Repr

/-- The end in words. -/
def Endpoint.text : Endpoint → String
  | source => "source"
  | target => "target"

/-- A node with its adjacency. -/
structure Node where
  /-- Identifies the node within a graph. -/
  uid : String
  /-- What the node is; any text. -/
  label : String
  /-- What is known about the node. -/
  properties : PropertyMap
  /-- The uids of the edges whose target is this node. -/
  inEdges : TextSet
  /-- The uids of the edges whose source is this node. -/
  outEdges : TextSet
  deriving DecidableEq

namespace Node

/-- A node that no edge touches. -/
def isolated (uid label : String) (properties : PropertyMap) : Node :=
  ⟨uid, label, properties, .empty, .empty⟩

/-- Whether the node carries a label. -/
def hasLabel (n : Node) (label : String) : Bool := n.label = label

/-- Sets a property. -/
def setProperty (n : Node) (key : String) (value : Value) : Node :=
  { n with properties := n.properties.insert key value }

/-- Drops a property. -/
def removeProperty (n : Node) (key : String) : Node :=
  { n with properties := n.properties.erase key }

/-- The number of edge ends at the node; an edge from the node to itself counts twice. -/
def degree (n : Node) : Nat := n.inEdges.size + n.outEdges.size

/-- The uids of the edges that have the node at an end. -/
def noted (n : Node) : Endpoint → TextSet
  | .source => n.outEdges
  | .target => n.inEdges

/-- Notes that an edge enters the node. -/
def attachIn (edge : String) (n : Node) : Node := { n with inEdges := n.inEdges.add edge }

/-- Notes that an edge leaves the node. -/
def attachOut (edge : String) (n : Node) : Node := { n with outEdges := n.outEdges.add edge }

/-- Forgets that an edge enters the node. -/
def detachIn (edge : String) (n : Node) : Node := { n with inEdges := n.inEdges.erase edge }

/-- Forgets that an edge leaves the node. -/
def detachOut (edge : String) (n : Node) : Node := { n with outEdges := n.outEdges.erase edge }

/-- The node with the label and properties of another; uid and adjacency stay. -/
def overwrite (n other : Node) : Node :=
  { n with label := other.label, properties := other.properties }

end Node

/-- A directed edge. -/
structure Edge where
  /-- Identifies the edge within a graph. -/
  uid : String
  /-- The uid of the node that the edge leaves. -/
  source : String
  /-- How the two nodes are related; any text. -/
  label : String
  /-- The uid of the node that the edge enters. -/
  target : String
  /-- What is known about the edge. -/
  properties : PropertyMap
  deriving DecidableEq

namespace Edge

/-- Sets a property. -/
def setProperty (e : Edge) (key : String) (value : Value) : Edge :=
  { e with properties := e.properties.insert key value }

/-- The uid of the node at an end of the edge. -/
def nodeAt (e : Edge) : Endpoint → String
  | .source => e.source
  | .target => e.target

/-- Whether the edge joins two nodes, in either direction. -/
def connects (e : Edge) (m n : String) : Bool :=
  (e.source = m && e.target = n) || (e.source = n && e.target = m)

/-- Whether the edge leaves a node. -/
def startsFrom (e : Edge) (node : String) : Bool := e.source = node

/-- Whether the edge enters a node. -/
def endsAt (e : Edge) (node : String) : Bool := e.target = node

end Edge

/-- Why a graph refuses a change or a look-up. -/
inductive GraphError
  /-- No node has this uid. -/
  | nodeNotFound (uid : String)
  /-- No edge has this uid. -/
  | edgeNotFound (uid : String)
  /-- A node with this uid is there already. -/
  | nodeAlreadyExists (uid : String)
  /-- An edge with this uid is there already. -/
  | edgeAlreadyExists (uid : String)
  /-- An edge names a node that is not there. -/
  | missingEndpoint (role : Endpoint) (uid : String)
  /-- Edges still touch the node that was to go; `count` of their ends are at it. -/
  | nodeHasEdges (uid : String) (count : Nat)
  deriving DecidableEq, Repr

/-- The error in words. -/
def GraphError.message : GraphError → String
  | nodeNotFound uid => s!"Node {uid} not found"
  | edgeNotFound uid => s!"Edge {uid} not found"
  | nodeAlreadyExists uid => s!"Node {uid} already exists"
  | edgeAlreadyExists uid => s!"Edge {uid} already exists"
  | missingEndpoint role uid => s!"Invalid edge: {role.text} node {uid} does not exist"
  | nodeHasEdges uid count =>
    s!"Can not remove node {uid} with edges attached (edge count: {count})"

end PropertyGraph
