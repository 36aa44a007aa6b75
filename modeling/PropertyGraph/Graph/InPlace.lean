import PropertyGraph.Graph.History

/-!
# Calls that write in place

A refused change of a `Store` cannot leave a trace, since it makes no graph. Here the same calls are
programs on one graph. They look things up and write to one node or one table after the other, and
whatever is written by the time a program is refused stays written.
-/

namespace PropertyGraph

namespace InPlace

/-- A program that works on a graph in place and may be refused. -/
abbrev Program (α : Type) := ExceptT GraphError (StateM Store) α

/-- Runs a program: its answer or why it was refused, and the graph as it has been written. -/
def run {α : Type} (p : Program α) (s : Store) : Except GraphError α × Store :=
  StateT.run (ExceptT.run p) s

section

variable {α β : Type}

@[simp] theorem run_pure (a : α) (s : Store) : run (pure a) s = (.ok a, s) := rfl

@[simp] theorem run_throw (e : GraphError) (s : Store) :
    run (throw e : Program α) s = (.error e, s) := rfl

@[simp] theorem run_get (s : Store) : run get s = (.ok s, s) := rfl

@[simp] theorem run_modify (f : Store → Store) (s : Store) : run (modify f) s = (.ok (), f s) := rfl

@[simp] theorem run_bind (p : Program α) (f : α → Program β) (s : Store) :
    run (p >>= f) s = match run p s with
      | (.ok a, s) => run (f a) s
      | (.error e, s) => (.error e, s) := by
  show (match run p s with | (x, s) => StateT.run (ExceptT.bindCont f x) s) = _
  rcases run p s with ⟨_ | a, t⟩ <;> rfl

@[simp] theorem run_map (f : α → β) (p : Program α) (s : Store) :
    run (f <$> p) s = ((run p s).1.map f, (run p s).2) := by
  rw [← bind_pure_comp, run_bind]
  rcases run p s with ⟨_ | a, t⟩ <;> rfl

end

/-! ## Changes -/

/-- Writes to a node, if it is there. -/
def writeNode (uid : String) (f : Node → Node) : Program Unit :=
  modify fun s => { s with nodes := s.nodes.adjust uid f }

/-- Adds a node that no edge touches. -/
def addNode (uid label : String) (properties : PropertyMap) : Program Node := do
  if (← get).hasNode uid then throw (.nodeAlreadyExists uid)
  let n := Node.isolated uid label properties
  modify fun s => { s with nodes := s.nodes.insert uid n }
  return n

/-- Replaces label and properties of the node with the replacement's uid. -/
def updateNode (replacement : Node) : Program Node := do
  match (← get).nodes.get? replacement.uid with
  | none => throw (.nodeNotFound replacement.uid)
  | some n =>
    writeNode replacement.uid (·.overwrite replacement)
    return n.overwrite replacement

/-- Removes a node that no edge touches. -/
def removeNode (uid : String) : Program Unit := do
  match (← get).nodes.get? uid with
  | none => throw (.nodeNotFound uid)
  | some n =>
    if n.degree ≠ 0 then throw (.nodeHasEdges uid n.degree)
    modify fun s => { s with nodes := s.nodes.erase uid }

/-- Adds an edge between two nodes of the graph and notes it at both. -/
def addEdge (e : Edge) : Program Edge := do
  if !(← get).hasNode e.source then throw (.missingEndpoint .source e.source)
  if !(← get).hasNode e.target then throw (.missingEndpoint .target e.target)
  if (← get).hasEdge e.uid then throw (.edgeAlreadyExists e.uid)
  writeNode e.source (·.attachOut e.uid)
  writeNode e.target (·.attachIn e.uid)
  modify fun s => { s with edges := s.edges.insert e.uid e }
  return e

/-- Removes the edge with this uid, if there is one, and forgets it at both its nodes. -/
def removeEdge (uid : String) : Program Bool := do
  match (← get).edges.get? uid with
  | none => return false
  | some e =>
    modify fun s => { s with edges := s.edges.erase uid }
    writeNode e.source (·.detachOut uid)
    writeNode e.target (·.detachIn uid)
    return true

/-- Adds what a dump lists, nodes first. -/
def load (d : Dump) : Program Loaded := do
  d.nodes.forM fun n => discard (addNode n.uid n.label n.properties)
  d.edges.forM fun e => discard (addEdge e)
  return ⟨d.nodes.length, d.edges.length⟩

/-- Makes a call. -/
def call : Call → Program Answer
  | .addNode uid label properties => .node <$> addNode uid label properties
  | .updateNode replacement => .node <$> updateNode replacement
  | .removeNode uid => (fun _ => .done) <$> removeNode uid
  | .addEdge e => .edge <$> addEdge e
  | .removeEdge uid => .found <$> removeEdge uid
  | .load d => .loaded <$> load d

end InPlace

end PropertyGraph
