import PropertyGraph.Graph.Dump

/-!
# Histories

A caller changes a graph by one call after the other. `Store.call` makes one call, `Store.after`
a list of them, and `Store.Reachable` holds of the graphs that some list of calls makes from the
empty one. Refused calls are part of a history too.

Between its calls a caller may ask questions, which change nothing (`Store.tell`). What it gets to
see in all is the list of responses to its requests (`Store.responses`).
-/

namespace PropertyGraph

/-- A change that a caller asks for. -/
inductive Call
  /-- Add a node. -/
  | addNode (uid label : String) (properties : PropertyMap)
  /-- Replace label and properties of a node. -/
  | updateNode (replacement : Node)
  /-- Remove a node. -/
  | removeNode (uid : String)
  /-- Add an edge. -/
  | addEdge (e : Edge)
  /-- Remove an edge. -/
  | removeEdge (uid : String)
  /-- Add what a dump lists. -/
  | load (d : Dump)
  deriving DecidableEq

/-- What a call answers unless it is refused. -/
inductive Answer
  /-- The node as it is now. -/
  | node (n : Node)
  /-- The edge as it is now. -/
  | edge (e : Edge)
  /-- Nothing but that it is done. -/
  | done
  /-- Whether there was anything to do. -/
  | found (there : Bool)
  /-- How much has been added. -/
  | loaded (summary : Loaded)
  deriving DecidableEq

/-- Something that a caller asks about. -/
inductive Question
  /-- Whether there is a node. -/
  | hasNode (uid : String)
  /-- A node. -/
  | node (uid : String)
  /-- All nodes. -/
  | nodes
  /-- The nodes that a filter selects. -/
  | nodesBy (f : Filter)
  /-- The number of nodes. -/
  | nodeCount
  /-- Whether there is an edge. -/
  | hasEdge (uid : String)
  /-- An edge. -/
  | edge (uid : String)
  /-- All edges. -/
  | edges
  /-- The edges that a filter selects. -/
  | edgesBy (f : Filter)
  /-- The number of edges. -/
  | edgeCount
  /-- The edges that enter a node. -/
  | inEdges (uid : String)
  /-- The edges that leave a node. -/
  | outEdges (uid : String)
  /-- A summary. -/
  | statistics
  /-- Whether there is no node. -/
  | isEmpty
  /-- All there is. -/
  | dump
  deriving DecidableEq

/-- What a caller is told unless the question makes no sense. -/
inductive Reply
  /-- Yes or no. -/
  | truth (holds : Bool)
  /-- A number. -/
  | count (n : Nat)
  /-- One node. -/
  | node (n : Node)
  /-- Nodes by ascending uid. -/
  | nodes (list : List Node)
  /-- One edge. -/
  | edge (e : Edge)
  /-- Edges by ascending uid. -/
  | edges (list : List Edge)
  /-- A summary. -/
  | statistics (summary : Store.Statistics)
  /-- All there is. -/
  | dump (d : Dump)
  deriving DecidableEq

/-- What a caller turns to a graph with. -/
inductive Request
  /-- A change. -/
  | change (c : Call)
  /-- A question. -/
  | tell (q : Question)
  deriving DecidableEq

/-- What a caller gets for a request. -/
inductive Response
  /-- The answer to a call, or why it was refused. -/
  | changed (answer : Except GraphError Answer)
  /-- The reply to a question, or why there is none. -/
  | told (reply : Except GraphError Reply)

namespace Store

/-- The outcome of a change that does nothing if it is refused. -/
def outcome {α : Type} (s : Store) (answer : α → Answer) :
    Except GraphError (α × Store) → Except GraphError Answer × Store
  | .ok (a, s') => (.ok (answer a), s')
  | .error e => (.error e, s)

/-- Makes a call. -/
def call (s : Store) : Call → Except GraphError Answer × Store
  | .addNode uid label properties => s.outcome .node (s.addNode uid label properties)
  | .updateNode replacement => s.outcome .node (s.updateNode replacement)
  | .removeNode uid => s.outcome (fun _ => .done) ((((), ·)) <$> s.removeNode uid)
  | .addEdge e => s.outcome .edge (s.addEdge e)
  | .removeEdge uid => let (there, s) := s.removeEdge uid; (.ok (.found there), s)
  | .load d => let (result, s) := s.load d; (result.map .loaded, s)

/-- The graph after a list of calls, refused ones included. -/
def after (s : Store) (calls : List Call) : Store := calls.foldl (fun s c => (s.call c).2) s

/-- Replies to a question. -/
def tell (s : Store) : Question → Except GraphError Reply
  | .hasNode uid => .ok (.truth (s.hasNode uid))
  | .node uid => .node <$> s.node uid
  | .nodes => .ok (.nodes s.nodes.values)
  | .nodesBy f => .ok (.nodes (s.nodesBy f))
  | .nodeCount => .ok (.count s.nodeCount)
  | .hasEdge uid => .ok (.truth (s.hasEdge uid))
  | .edge uid => .edge <$> s.edge uid
  | .edges => .ok (.edges s.edges.values)
  | .edgesBy f => .ok (.edges (s.edgesBy f))
  | .edgeCount => .ok (.count s.edgeCount)
  | .inEdges uid => .edges <$> s.inEdges uid
  | .outEdges uid => .edges <$> s.outEdges uid
  | .statistics => .ok (.statistics s.statistics)
  | .isEmpty => .ok (.truth s.isEmpty)
  | .dump => .ok (.dump s.dump)

/-- What the requests of a list get, in order; a question changes nothing. -/
def responses (s : Store) : List Request → List Response
  | [] => []
  | .change c :: rest => .changed (s.call c).1 :: responses (s.call c).2 rest
  | .tell q :: rest => .told (s.tell q) :: responses s rest

/-- Whether some list of calls makes a graph from the empty one. -/
def Reachable (s : Store) : Prop := ∃ calls, empty.after calls = s

@[simp] theorem after_nil (s : Store) : s.after [] = s := rfl

@[simp] theorem after_cons (s : Store) (c : Call) (rest : List Call) :
    s.after (c :: rest) = (s.call c).2.after rest := rfl

/-- Calls can be made in two rounds. -/
theorem after_append (s : Store) (first second : List Call) :
    s.after (first ++ second) = (s.after first).after second :=
  List.foldl_append

theorem Reachable.empty : Reachable empty := ⟨[], rfl⟩

/-- One call more leads to a graph that calls have made. -/
theorem Reachable.call {s : Store} (h : s.Reachable) (c : Call) : (s.call c).2.Reachable := by
  obtain ⟨calls, rfl⟩ := h
  exact ⟨calls ++ [c], after_append _ _ _⟩

/-- **What holds of every reachable graph.** It is enough that it holds of the empty graph and
that every call keeps it. -/
theorem Reachable.rec_calls {p : Store → Prop} (start : p Store.empty)
    (step : ∀ s c, p s → p (s.call c).2) {s : Store} (h : s.Reachable) : p s := by
  obtain ⟨calls, rfl⟩ := h
  suffices ∀ t, p t → p (t.after calls) from this _ start
  induction calls with
  | nil => exact fun t ht => ht
  | cons c rest ih => exact fun t ht => ih _ (step t c ht)

end Store

end PropertyGraph
