import PropertyGraph.Graph.Ledger
import PropertyGraph.Proofs.Graph.Consistency

/-!
# A graph against a ledger

A graph keeps at every node what edges are at it, and answers from there; a ledger goes through
all edges each time. `Store.ledger` forgets the adjacency of a graph. For a consistent graph
nothing is lost by that: the ledger replies alike to every question (`tell_ledger`) and responds
alike to every call, after which the two agree again (`call_ledger`). Hence a graph and a ledger
that start empty cannot be told apart (`responses_eq_ledger`).
-/

namespace PropertyGraph

/-- What there is to write down of a node besides its uid and its adjacency. -/
def Node.description (n : Node) : Description := ⟨n.label, n.properties⟩

namespace Store

/-- What is left of a graph without adjacency. -/
def ledger (s : Store) : Ledger := ⟨s.nodes.map Node.description, s.edges.map Edge.connection⟩

/-- A ledger has the description of each node. -/
theorem get?_ledger_nodes (s : Store) (u : String) :
    s.ledger.nodes.get? u = (s.nodes.get? u).map Node.description :=
  Table.get?_map _ _ _

/-- It has the connection that each edge makes. -/
theorem get?_ledger_edges (s : Store) (x : String) :
    s.ledger.edges.get? x = (s.edges.get? x).map Edge.connection :=
  Table.get?_map _ _ _

/-- A ledger has the nodes of its graph. -/
theorem contains_ledger_nodes (s : Store) (u : String) :
    s.ledger.nodes.contains u = s.hasNode u :=
  Table.contains_map _ _ _

/-- It has the edges of its graph. -/
theorem contains_ledger_edges (s : Store) (x : String) :
    s.ledger.edges.contains x = s.hasEdge x :=
  Table.contains_map _ _ _

namespace Consistent

variable {s : Store}

/-! ## Going through all edges -/

/-- An edge is made up of its uid and the connection. -/
theorem edge_connection (h : s.Consistent) {x : String} {e : Edge}
    (he : s.edges.get? x = some e) : e.connection.edge x = e := by
  rw [← h.uid_edge he]
  rfl

/-- Going through a ledger one meets the edges of the graph. -/
theorem allEdges_ledger (h : s.Consistent) : s.ledger.allEdges = s.edges.values :=
  Table.map_toList_map h.edge_connection

/-- The edges that have a node at an end, found by going through all edges. -/
def edgesAt (s : Store) (role : Endpoint) (u : String) : List Edge :=
  s.edges.values.filter (·.nodeAt role = u)

/-- A ledger finds the edges that leave a node among all edges. -/
theorem leaving_ledger (h : s.Consistent) (u : String) :
    s.ledger.leaving u = edgesAt s .source u := by
  rw [Ledger.leaving, h.allEdges_ledger]
  rfl

/-- So it does with those that enter one. -/
theorem entering_ledger (h : s.Consistent) (u : String) :
    s.ledger.entering u = edgesAt s .target u := by
  rw [Ledger.entering, h.allEdges_ledger]
  rfl

/-- **What a node notes is what going through all edges finds,** in the same order. -/
theorem members_noted (h : s.Consistent) {u : String} {n : Node} (role : Endpoint)
    (hn : s.nodes.get? u = some n) :
    (n.noted role).members = (edgesAt s role u).map (·.uid) := by
  have ascending : ((edgesAt s role u).map (·.uid)).Pairwise (· < ·) := by
    refine List.Pairwise.sublist (List.filter_sublist.map _) ?_
    rw [h.uids_edges]
    exact s.edges.keys_ascending
  -- both lists ascend, so they are the same if they have the same members
  rw [← TextSet.members_ofTexts ascending]
  refine congrArg TextSet.members (TextSet.ext_members fun x => ?_)
  rw [h.mem_noted role hn, TextSet.mem_members_ofTexts, List.mem_map]
  constructor
  · rintro ⟨e, he, at_u⟩
    refine ⟨e, List.mem_filter.2 ⟨Table.mem_values_iff.2 ⟨x, he⟩, ?_⟩, h.uid_edge he⟩
    simpa using at_u
  · rintro ⟨e, he, rfl⟩
    obtain ⟨listed, at_u⟩ := List.mem_filter.1 he
    obtain ⟨y, hy⟩ := Table.mem_values_iff.1 listed
    refine ⟨e, ?_, by simpa using at_u⟩
    rw [h.uid_edge hy]
    exact hy

/-- What a node notes is the set of the uids that going through all edges finds. -/
theorem noted_eq_ofTexts (h : s.Consistent) {u : String} {n : Node} (role : Endpoint)
    (hn : s.nodes.get? u = some n) :
    n.noted role = .ofTexts ((edgesAt s role u).map (·.uid)) := by
  refine TextSet.ext_members fun x => ?_
  rw [TextSet.mem_members_ofTexts, h.members_noted role hn]

/-- Looking up the uids of edges of the graph loses none of them. -/
theorem resolve_uids {l : List Edge} (filed : ∀ e ∈ l, s.edges.get? e.uid = some e) :
    s.resolve (l.map (·.uid)) = l := by
  induction l with
  | nil => rfl
  | cons e rest ih =>
    obtain ⟨first, others⟩ := List.forall_mem_cons.1 filed
    rw [List.map_cons, resolve, List.filterMap_cons_some first]
    exact congrArg _ (ih others)

/-- Looking up what a node notes gives the edges that going through all of them finds. -/
theorem resolve_noted (h : s.Consistent) {u : String} {n : Node} (role : Endpoint)
    (hn : s.nodes.get? u = some n) :
    s.resolve (n.noted role).members = edgesAt s role u := by
  rw [h.members_noted role hn]
  refine resolve_uids fun e he => ?_
  obtain ⟨x, hx⟩ := Table.mem_values_iff.1 (List.mem_filter.1 he).1
  rw [h.uid_edge hx]
  exact hx

/-- A node notes as many edges as going through all of them finds. -/
theorem size_noted (h : s.Consistent) {u : String} {n : Node} (role : Endpoint)
    (hn : s.nodes.get? u = some n) : (n.noted role).size = (edgesAt s role u).length := by
  rw [← List.length_map (f := (·.uid)), ← h.members_noted role hn, Table.length_keys]

/-- The degree counts edge ends. -/
theorem degree_eq_ends (h : s.Consistent) {u : String} {n : Node}
    (hn : s.nodes.get? u = some n) : n.degree = s.ledger.ends u := by
  rw [Node.degree, Ledger.ends, h.leaving_ledger, h.entering_ledger, ← h.size_noted .source hn,
    ← h.size_noted .target hn]
  exact Nat.add_comm _ _

/-- A node is described in full by a ledger: its adjacency can be found among all edges. -/
theorem describe_ledger (h : s.Consistent) {u : String} {n : Node}
    (hn : s.nodes.get? u = some n) : s.ledger.describe u n.description = n := by
  obtain ⟨uid, label, properties, into, out⟩ := n
  have hinto : into = _ := h.noted_eq_ofTexts .target hn
  have hout : out = _ := h.noted_eq_ofTexts .source hn
  rw [Ledger.describe, h.entering_ledger, h.leaving_ledger, ← hinto, ← hout, ← h.uid_node hn]
  rfl

/-- The nodes that a ledger describes are those of the graph. -/
theorem allNodes_ledger (h : s.Consistent) : s.ledger.allNodes = s.nodes.values :=
  Table.map_toList_map h.describe_ledger

/-! ## Questions -/

/-- Asked for a node, ledger and graph give the same answer. -/
theorem node_ledger (h : s.Consistent) (u : String) : s.ledger.node u = s.node u := by
  unfold Ledger.node Store.node
  rw [get?_ledger_nodes]
  cases hn : s.nodes.get? u with
  | none => rfl
  | some n => exact congrArg Except.ok (h.describe_ledger hn)

/-- Asked for an edge, they do. -/
theorem edge_ledger (h : s.Consistent) (x : String) : s.ledger.edge x = s.edge x := by
  unfold Ledger.edge Store.edge
  rw [get?_ledger_edges]
  cases he : s.edges.get? x with
  | none => rfl
  | some e => exact congrArg Except.ok (h.edge_connection he)

/-- Asked for the edges that enter a node, they do. -/
theorem inEdges_ledger (h : s.Consistent) (u : String) : s.ledger.inEdges u = s.inEdges u := by
  unfold Ledger.inEdges Store.inEdges Store.node
  rw [contains_ledger_nodes, hasNode, Table.contains, h.entering_ledger]
  cases hn : s.nodes.get? u with
  | none => rfl
  | some n => exact congrArg Except.ok (h.resolve_noted .target hn).symm

/-- Asked for the edges that leave a node, they do. -/
theorem outEdges_ledger (h : s.Consistent) (u : String) : s.ledger.outEdges u = s.outEdges u := by
  unfold Ledger.outEdges Store.outEdges Store.node
  rw [contains_ledger_nodes, hasNode, Table.contains, h.leaving_ledger]
  cases hn : s.nodes.get? u with
  | none => rfl
  | some n => exact congrArg Except.ok (h.resolve_noted .source hn).symm

/-- Statistics do not look at adjacency. -/
theorem statistics_ledger (s : Store) : s.ledger.statistics = s.statistics := by
  have nodes : s.ledger.nodes.values.map (·.label) = s.nodes.values.map (·.label) := by
    rw [Store.ledger, Table.values_map, List.map_map]
    rfl
  have edges : s.ledger.edges.values.map (·.label) = s.edges.values.map (·.label) := by
    rw [Store.ledger, Table.values_map, List.map_map]
    rfl
  unfold Ledger.statistics Store.statistics
  rw [nodes, edges]
  congr 1
  · exact Table.size_map _ _
  · exact Table.size_map _ _

/-- **A ledger replies to every question as the graph does.** -/
theorem tell_ledger (h : s.Consistent) (q : Question) : s.ledger.tell q = s.tell q := by
  cases q with
  | hasNode u => rw [Ledger.tell, contains_ledger_nodes]; rfl
  | node u => rw [Ledger.tell, h.node_ledger]; rfl
  | nodes => rw [Ledger.tell, h.allNodes_ledger]; rfl
  | nodesBy f => rw [Ledger.tell, h.allNodes_ledger]; rfl
  | nodeCount => exact congrArg (fun n => Except.ok (Reply.count n)) (Table.size_map _ _)
  | hasEdge x => rw [Ledger.tell, contains_ledger_edges]; rfl
  | edge x => rw [Ledger.tell, h.edge_ledger]; rfl
  | edges => rw [Ledger.tell, h.allEdges_ledger]; rfl
  | edgesBy f => rw [Ledger.tell, h.allEdges_ledger]; rfl
  | edgeCount => exact congrArg (fun n => Except.ok (Reply.count n)) (Table.size_map _ _)
  | inEdges u => rw [Ledger.tell, h.inEdges_ledger]; rfl
  | outEdges u => rw [Ledger.tell, h.outEdges_ledger]; rfl
  | statistics => rw [Ledger.tell, statistics_ledger]; rfl
  | isEmpty =>
    rw [Ledger.tell, Store.tell, show s.ledger.nodes.size = s.nodes.size from Table.size_map _ _]
    unfold Store.isEmpty Table.isEmpty Table.size
    cases s.nodes.toList <;> rfl
  | dump => rw [Ledger.tell, h.allNodes_ledger, h.allEdges_ledger]; rfl

/-- Two graphs with one ledger are one graph. -/
theorem eq_of_ledger_eq {t : Store} (hs : s.Consistent) (ht : t.Consistent)
    (same : s.ledger = t.ledger) : s = t := by
  have nodes : s.nodes = t.nodes := by
    refine Table.ext_get? fun u => ?_
    have told : s.node u = t.node u := by rw [← hs.node_ledger, ← ht.node_ledger, same]
    unfold Store.node at told
    cases hn : s.nodes.get? u <;> cases hm : t.nodes.get? u <;> simp_all
  have edges : s.edges = t.edges := by
    refine Table.ext_get? fun x => ?_
    have told : s.edge x = t.edge x := by rw [← hs.edge_ledger, ← ht.edge_ledger, same]
    unfold Store.edge at told
    cases he : s.edges.get? x <;> cases hf : t.edges.get? x <;> simp_all
  show Store.mk s.nodes s.edges = Store.mk t.nodes t.edges
  rw [nodes, edges]

end Consistent

/-! ## Calls -/

variable {s : Store}

/-- Putting in a node writes its description into the ledger. -/
theorem ledger_insertNode (s : Store) (u : String) (n : Node) :
    ledger { s with nodes := s.nodes.insert u n } =
      { s.ledger with nodes := s.ledger.nodes.insert u n.description } := by
  unfold ledger
  rw [Table.map_insert]

/-- Taking out a node strikes it from the ledger. -/
theorem ledger_eraseNode (s : Store) (u : String) :
    ledger { s with nodes := s.nodes.erase u } =
      { s.ledger with nodes := s.ledger.nodes.erase u } := by
  unfold ledger
  rw [Table.map_erase]

/-- Noting an edge at its nodes leaves no trace in the ledger. -/
theorem ledger_link (s : Store) (e : Edge) :
    (s.link e).ledger = { s.ledger with edges := s.ledger.edges.insert e.uid e.connection } := by
  have nodes : (s.link e).nodes.map Node.description = s.nodes.map Node.description := by
    refine Table.ext_get? fun u => ?_
    rw [Table.get?_map, Table.get?_map, get?_link, Option.map_map]
    rfl
  unfold ledger
  rw [nodes]
  exact congrArg (Ledger.mk _) (Table.map_insert _ _ _ _)

/-- Nor does forgetting one. -/
theorem ledger_unlink (s : Store) (x : String) (e : Edge) :
    (s.unlink x e).ledger = { s.ledger with edges := s.ledger.edges.erase x } := by
  have nodes : (s.unlink x e).nodes.map Node.description = s.nodes.map Node.description := by
    refine Table.ext_get? fun u => ?_
    rw [Table.get?_map, Table.get?_map, get?_unlink, Option.map_map]
    rfl
  unfold ledger
  rw [nodes]
  exact congrArg (Ledger.mk _) (Table.map_erase _ _ _)

/-- Adding a node is the same for a ledger and for its graph. -/
theorem addNode_ledger (s : Store) (u label : String) (properties : PropertyMap) :
    s.ledger.addNode u label properties = (·.2.ledger) <$> s.addNode u label properties := by
  unfold Ledger.addNode addNode
  rw [contains_ledger_nodes]
  cases s.hasNode u with
  | true => rfl
  | false => exact congrArg Except.ok (ledger_insertNode s u (.isolated u label properties)).symm

/-- So is adding an edge. -/
theorem addEdge_ledger (s : Store) (e : Edge) :
    s.ledger.addEdge e = (·.2.ledger) <$> s.addEdge e := by
  unfold Ledger.addEdge addEdge
  rw [contains_ledger_nodes, contains_ledger_nodes, contains_ledger_edges]
  cases s.hasNode e.source <;> cases s.hasNode e.target <;> cases s.hasEdge e.uid <;> try rfl
  exact congrArg Except.ok (ledger_link s e).symm

/-- The nodes of a dump go into both alike. -/
theorem loadNodes_ledger (s : Store) (nodes : List ListedNode) :
    replay (fun l n => Ledger.addNode l n.uid n.label n.properties) s.ledger nodes =
      ((s.loadNodes nodes).1, (s.loadNodes nodes).2.ledger) := by
  refine replay_map (f := ledger) (fun s n => ?_) s nodes
  rw [addNode_ledger]
  cases s.addNode n.uid n.label n.properties <;> rfl

/-- So do its edges. -/
theorem loadEdges_ledger (s : Store) (edges : List Edge) :
    replay Ledger.addEdge s.ledger edges =
      ((s.loadEdges edges).1, (s.loadEdges edges).2.ledger) := by
  refine replay_map (f := ledger) (fun s e => ?_) s edges
  rw [addEdge_ledger]
  cases s.addEdge e <;> rfl

/-- A load stops at the same place in both, or in neither. -/
theorem load_ledger (s : Store) (d : Dump) :
    s.ledger.load d = ((s.load d).1, (s.load d).2.ledger) := by
  unfold Ledger.load load
  rw [loadNodes_ledger]
  rcases s.loadNodes d.nodes with ⟨_ | refusal, t⟩
  · dsimp only
    rw [loadEdges_ledger]
    rcases t.loadEdges d.edges with ⟨_ | refusal, t⟩ <;> rfl
  · rfl

namespace Consistent

/-- **A ledger answers every call as the graph does,** and the two agree again afterwards. -/
theorem call_ledger (h : s.Consistent) (c : Call) :
    s.ledger.call c = ((s.call c).1, (s.call c).2.ledger) := by
  cases c with
  | addNode u label properties =>
    rw [Ledger.call, Store.call, addNode_ledger]
    cases ok : s.addNode u label properties with
    | error e => rfl
    | ok a =>
      obtain ⟨n, s'⟩ := a
      have node : s'.ledger.node u = .ok n := by
        obtain ⟨-, -, new⟩ := addNode_eq_ok_iff.1 ok
        rw [(h.addNode ok).node_ledger, Store.node, new, Table.get?_insert, if_pos rfl]
      exact congrArg (fun r => (Answer.node <$> r, s'.ledger)) node
  | updateNode r =>
    rw [Ledger.call, Store.call, contains_ledger_nodes, hasNode, Table.contains]
    cases hm : s.nodes.get? r.uid with
    | none =>
      rw [Store.updateNode, hm]
      rfl
    | some m =>
      have ok := updateNode_eq_ok_iff.2 ⟨m, hm, rfl, rfl⟩
      have node := (h.updateNode ok).node_ledger r.uid
      -- the adjacency that the replacement carries is written down nowhere
      have written : s.ledger.nodes.insert r.uid ⟨r.label, r.properties⟩ =
          s.ledger.nodes.insert r.uid (m.overwrite r).description := rfl
      rw [Store.node, Table.get?_insert, if_pos rfl] at node
      rw [ok, Option.isSome_some, if_pos rfl, written, ← ledger_insertNode]
      exact congrArg (fun n => (Answer.node <$> n, _)) node
  | removeNode u =>
    rw [Ledger.call, Store.call, contains_ledger_nodes, hasNode, Table.contains,
      Store.removeNode]
    cases hn : s.nodes.get? u with
    | none => rfl
    | some n =>
      rw [← h.degree_eq_ends hn]
      by_cases bare : n.degree = 0
      · simp only [bare, ne_eq, not_true_eq_false, if_false, Option.isSome_some, Bool.not_true,
          Bool.false_eq_true]
        exact congrArg (Prod.mk _) (ledger_eraseNode s u).symm
      · simp only [bare, ne_eq, not_false_eq_true, if_true, Option.isSome_some, Bool.not_true,
          Bool.false_eq_true, if_false]
        rfl
  | addEdge e =>
    rw [Ledger.call, Store.call, addEdge_ledger]
    cases ok : s.addEdge e with
    | error refusal => rfl
    | ok a =>
      obtain ⟨-, -, -, same, -⟩ := addEdge_eq_ok_iff.1 ok
      exact congrArg (fun f => (Except.ok (Answer.edge f), a.2.ledger)) same.symm
  | removeEdge x =>
    rw [Ledger.call, Store.call, contains_ledger_edges, hasEdge, Table.contains]
    cases he : s.edges.get? x with
    | none =>
      rw [removeEdge_of_none he]
      rw [Table.erase_of_get?_eq_none (by rw [get?_ledger_edges, he]; rfl)]
      rfl
    | some e =>
      rw [removeEdge_of_some he]
      exact congrArg (Prod.mk _) (ledger_unlink s x e).symm
  | load d =>
    rw [Ledger.call, Store.call, load_ledger]

/-- By induction on the requests, a graph and its ledger respond alike all along. -/
theorem responses_ledger (h : s.Consistent) (requests : List Request) :
    s.ledger.responses requests = s.responses requests := by
  induction requests generalizing s with
  | nil => rfl
  | cons r rest ih =>
    cases r with
    | change c =>
      rw [Ledger.responses, Store.responses, h.call_ledger]
      exact congrArg _ (ih (h.call c))
    | tell q =>
      rw [Ledger.responses, Store.responses, h.tell_ledger, ih h]

end Consistent

/-- **A graph cannot be told from a ledger.** Started empty, the two give the same response to
every request of every list, be it an answer, a reply or a refusal with all it says, although the
ledger keeps no adjacency and finds the edges at a node by going through all of them. -/
theorem responses_eq_ledger (requests : List Request) :
    empty.responses requests = Ledger.empty.responses requests :=
  (Consistent.empty.responses_ledger requests).symm

end Store

end PropertyGraph
