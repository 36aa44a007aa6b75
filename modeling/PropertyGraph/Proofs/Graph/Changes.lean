import PropertyGraph.Graph.History
import PropertyGraph.Proofs.Outcome

/-!
# What a change does

For each change of a graph, exactly when it succeeds and with what graph (`addNode_eq_ok_iff` and
its like), and what it does to look-ups. Everything said later about runs of changes rests on
these equations and looks into no change again.

An edge is noted at its source and at its target, which may be one node: `get?_link` and
`get?_unlink` say what becomes of *any* node, whichever ends it is at.
-/

namespace PropertyGraph

namespace Store

variable {s s' : Store}

/-! ## Look-ups -/

/-- Look-ups of nodes and edges decide a graph. -/
theorem ext_get? (nodes : ∀ u, s.nodes.get? u = s'.nodes.get? u)
    (edges : ∀ x, s.edges.get? x = s'.edges.get? x) : s = s' := by
  show Store.mk s.nodes s.edges = Store.mk s'.nodes s'.edges
  rw [Table.ext_get? nodes, Table.ext_get? edges]

/-- There is a node exactly if it can be looked up. -/
theorem hasNode_iff {u : String} : s.hasNode u ↔ ∃ n, s.nodes.get? u = some n :=
  Table.contains_iff

/-- A node is given exactly if there is one. -/
theorem node_eq_ok_iff {u : String} {n : Node} : s.node u = .ok n ↔ s.nodes.get? u = some n := by
  unfold node
  cases s.nodes.get? u <;> simp

/-- So is an edge. -/
theorem edge_eq_ok_iff {x : String} {e : Edge} : s.edge x = .ok e ↔ s.edges.get? x = some e := by
  unfold edge
  cases s.edges.get? x <;> simp

/-! ## Success -/

/-- A node is added exactly if its uid is free, without edges. -/
theorem addNode_eq_ok_iff {u label : String} {properties : PropertyMap} {n : Node} :
    s.addNode u label properties = .ok (n, s') ↔
      s.nodes.get? u = none ∧ n = .isolated u label properties ∧
        s' = { s with nodes := s.nodes.insert u n } := by
  unfold addNode hasNode
  rw [← Table.contains_eq_false_iff]
  cases s.nodes.contains u with
  | true => simp
  | false =>
    simp only [Bool.false_eq_true, if_false, Except.ok.injEq, Prod.mk.injEq, true_and]
    constructor
    · rintro ⟨rfl, rfl⟩
      exact ⟨rfl, rfl⟩
    · rintro ⟨rfl, rfl⟩
      exact ⟨rfl, rfl⟩

/-- A node is replaced exactly if there is one, and keeps its adjacency. -/
theorem updateNode_eq_ok_iff {r n : Node} :
    s.updateNode r = .ok (n, s') ↔
      ∃ m, s.nodes.get? r.uid = some m ∧ n = m.overwrite r ∧
        s' = { s with nodes := s.nodes.insert r.uid n } := by
  unfold updateNode
  cases s.nodes.get? r.uid with
  | none => simp
  | some m =>
    simp only [Except.ok.injEq, Prod.mk.injEq, Option.some.injEq, exists_eq_left']
    constructor
    · rintro ⟨rfl, rfl⟩
      exact ⟨rfl, rfl⟩
    · rintro ⟨rfl, rfl⟩
      exact ⟨rfl, rfl⟩

/-- A node is removed exactly if there is one that notes no edge. -/
theorem removeNode_eq_ok_iff {u : String} :
    s.removeNode u = .ok s' ↔
      ∃ n, s.nodes.get? u = some n ∧ n.degree = 0 ∧
        s' = { s with nodes := s.nodes.erase u } := by
  unfold removeNode
  cases s.nodes.get? u with
  | none => simp
  | some n =>
    by_cases h : n.degree = 0
    · simp [h, eq_comm]
    · simp [h]

/-- An edge is added exactly if both its nodes are there and its uid is free. -/
theorem addEdge_eq_ok_iff {e e' : Edge} :
    s.addEdge e = .ok (e', s') ↔
      s.hasNode e.source ∧ s.hasNode e.target ∧ s.edges.get? e.uid = none ∧ e' = e ∧
        s' = s.link e := by
  unfold addEdge hasEdge
  rw [← Table.contains_eq_false_iff]
  cases s.hasNode e.source <;> cases s.hasNode e.target <;> cases s.edges.contains e.uid <;>
    simp [eq_comm]

/-- Where there is no edge, none is removed. -/
theorem removeEdge_of_none {x : String} (h : s.edges.get? x = none) :
    s.removeEdge x = (false, s) := by
  rw [removeEdge, h]

/-- Where there is one, it is taken out and forgotten at its nodes. -/
theorem removeEdge_of_some {x : String} {e : Edge} (h : s.edges.get? x = some e) :
    s.removeEdge x = (true, s.unlink x e) := by
  rw [removeEdge, h]

/-! ## Calls -/

/-- A call goes through exactly if its change does. -/
theorem outcome_eq_ok_iff {α : Type} {answer : α → Answer} {a : Answer}
    {change : Except GraphError (α × Store)} :
    s.outcome answer change = (.ok a, s') ↔ ∃ b, change = .ok (b, s') ∧ a = answer b := by
  constructor
  · intro made
    cases change with
    | error e => nomatch made
    | ok b =>
      cases made
      exact ⟨b.1, rfl, rfl⟩
  · rintro ⟨b, rfl, rfl⟩
    rfl

/-- Adding a node, as a call. -/
theorem call_addNode_eq_ok_iff {u label : String} {properties : PropertyMap} {a : Answer} :
    s.call (.addNode u label properties) = (.ok a, s') ↔
      s.nodes.get? u = none ∧ a = .node (.isolated u label properties) ∧
        s' = { s with nodes := s.nodes.insert u (.isolated u label properties) } := by
  rw [call, outcome_eq_ok_iff]
  simp only [addNode_eq_ok_iff]
  constructor
  · rintro ⟨_, ⟨absent, rfl, rfl⟩, rfl⟩
    exact ⟨absent, rfl, rfl⟩
  · rintro ⟨absent, rfl, rfl⟩
    exact ⟨_, ⟨absent, rfl, rfl⟩, rfl⟩

/-- Removing a node, as a call. -/
theorem call_removeNode_eq_ok_iff {u : String} {a : Answer} :
    s.call (.removeNode u) = (.ok a, s') ↔
      ∃ n, s.nodes.get? u = some n ∧ n.degree = 0 ∧ a = .done ∧
        s' = { s with nodes := s.nodes.erase u } := by
  rw [call, outcome_eq_ok_iff]
  simp only [map_eq_ok_iff, removeNode_eq_ok_iff]
  constructor
  · rintro ⟨_, ⟨t, ⟨n, hn, bare, rfl⟩, ⟨⟩⟩, rfl⟩
    exact ⟨n, hn, bare, rfl, rfl⟩
  · rintro ⟨n, hn, bare, rfl, rfl⟩
    exact ⟨(), ⟨_, ⟨n, hn, bare, rfl⟩, rfl⟩, rfl⟩

/-- Adding an edge, as a call. -/
theorem call_addEdge_eq_ok_iff {e : Edge} {a : Answer} :
    s.call (.addEdge e) = (.ok a, s') ↔
      (∀ role, s.hasNode (e.nodeAt role)) ∧ s.edges.get? e.uid = none ∧ a = .edge e ∧
        s' = s.link e := by
  rw [call, outcome_eq_ok_iff]
  simp only [addEdge_eq_ok_iff]
  constructor
  · rintro ⟨_, ⟨source, target, fresh, rfl, rfl⟩, rfl⟩
    exact ⟨fun role => by cases role <;> assumption, fresh, rfl, rfl⟩
  · rintro ⟨ends, fresh, rfl, rfl⟩
    exact ⟨e, ⟨ends .source, ends .target, fresh, rfl, rfl⟩, rfl⟩

/-- Removing an edge that is there, as a call. -/
theorem call_removeEdge_eq_found_iff {x : String} :
    s.call (.removeEdge x) = (.ok (.found true), s') ↔
      ∃ e, s.edges.get? x = some e ∧ s' = s.unlink x e := by
  rw [call]
  cases he : s.edges.get? x with
  | none => simp [removeEdge_of_none he]
  | some e => simp [removeEdge_of_some he, eq_comm]

/-! ## What becomes of the nodes -/

/-- Changing what is noted of edges out at one node and of edges in at another. -/
theorem get?_adjust_ends (t : Table Node) (source target u : String)
    (out into : TextSet → TextSet) :
    ((t.adjust source fun n => { n with outEdges := out n.outEdges }).adjust target
        fun n => { n with inEdges := into n.inEdges }).get? u =
      (t.get? u).map fun n => { n with
        outEdges := if u = source then out n.outEdges else n.outEdges
        inEdges := if u = target then into n.inEdges else n.inEdges } := by
  rw [Table.get?_adjust, Table.get?_adjust]
  cases t.get? u with
  | none => split <;> split <;> rfl
  | some n => split <;> split <;> rfl

/-- An edge is noted at its source among those that leave it and at its target among those that
enter it, which may be the same node. -/
theorem get?_link (s : Store) (e : Edge) (u : String) :
    (s.link e).nodes.get? u = (s.nodes.get? u).map fun n => { n with
      outEdges := if u = e.source then n.outEdges.add e.uid else n.outEdges
      inEdges := if u = e.target then n.inEdges.add e.uid else n.inEdges } :=
  get?_adjust_ends s.nodes e.source e.target u (·.add e.uid) (·.add e.uid)

/-- It is forgotten at the same places. -/
theorem get?_unlink (s : Store) (x : String) (e : Edge) (u : String) :
    (s.unlink x e).nodes.get? u = (s.nodes.get? u).map fun n => { n with
      outEdges := if u = e.source then n.outEdges.erase x else n.outEdges
      inEdges := if u = e.target then n.inEdges.erase x else n.inEdges } :=
  get?_adjust_ends s.nodes e.source e.target u (·.erase x) (·.erase x)

theorem edges_link (s : Store) (e : Edge) : (s.link e).edges = s.edges.insert e.uid e := rfl

theorem edges_unlink (s : Store) (x : String) (e : Edge) :
    (s.unlink x e).edges = s.edges.erase x := rfl

/-- Linking an edge makes no node. -/
theorem hasNode_link (s : Store) (e : Edge) (u : String) :
    (s.link e).hasNode u = s.hasNode u := by
  rw [hasNode, Table.contains, get?_link, Option.isSome_map]
  rfl

/-- Unlinking one takes none away. -/
theorem hasNode_unlink (s : Store) (x : String) (e : Edge) (u : String) :
    (s.unlink x e).hasNode u = s.hasNode u := by
  rw [hasNode, Table.contains, get?_unlink, Option.isSome_map]
  rfl

/-- A linked edge is noted at its ends, and otherwise every node is as before. -/
theorem exists_of_get?_link {s : Store} {e : Edge} {u : String} {n : Node}
    (h : (s.link e).nodes.get? u = some n) :
    ∃ m, s.nodes.get? u = some m ∧ n.uid = m.uid ∧ ∀ role, n.noted role =
      if u = e.nodeAt role then (m.noted role).add e.uid else m.noted role := by
  rw [get?_link] at h
  obtain ⟨m, hm, rfl⟩ := Option.map_eq_some_iff.1 h
  refine ⟨m, hm, rfl, fun role => ?_⟩
  cases role <;> rfl

/-- An unlinked edge is forgotten at its ends, and otherwise every node is as before. -/
theorem exists_of_get?_unlink {s : Store} {x : String} {e : Edge} {u : String} {n : Node}
    (h : (s.unlink x e).nodes.get? u = some n) :
    ∃ m, s.nodes.get? u = some m ∧ n.uid = m.uid ∧ ∀ role, n.noted role =
      if u = e.nodeAt role then (m.noted role).erase x else m.noted role := by
  rw [get?_unlink] at h
  obtain ⟨m, hm, rfl⟩ := Option.map_eq_some_iff.1 h
  refine ⟨m, hm, rfl, fun role => ?_⟩
  cases role <;> rfl

end Store

/-! ## Replaying -/

/-- What every successful change keeps, a replay keeps, refused or not. -/
theorem replay_induction {σ α : Type} {change : σ → α → Except GraphError σ} {p : σ → Prop}
    (step : ∀ s a s', p s → change s a = .ok s' → p s') {s : σ} (start : p s) (l : List α) :
    p (replay change s l).2 := by
  induction l generalizing s with
  | nil => exact start
  | cons a rest ih =>
    rw [replay]
    cases h : change s a with
    | error e => exact start
    | ok s' => exact ih (step s a s' start h)

/-- Replays in step: if a map `f` of states takes each change to a change that is refused for the
same reason, it takes a replay to a replay. -/
theorem replay_map {σ τ α : Type} {change : σ → α → Except GraphError σ}
    {change' : τ → α → Except GraphError τ} {f : σ → τ}
    (agree : ∀ s a, change' (f s) a = f <$> change s a) (s : σ) (l : List α) :
    replay change' (f s) l = ((replay change s l).1, f (replay change s l).2) := by
  induction l generalizing s with
  | nil => rfl
  | cons a rest ih =>
    rw [replay, replay, agree]
    cases change s a with
    | error e => rfl
    | ok s' => exact ih s'

end PropertyGraph
