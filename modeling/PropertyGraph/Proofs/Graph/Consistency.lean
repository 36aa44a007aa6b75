import PropertyGraph.Proofs.Graph.Changes
import PropertyGraph.Query.Execution

/-!
# Consistency of a graph

What a graph notes at its nodes repeats what its edges say. `Store.Consistent` holds when the two
agree, in both directions, when every edge joins nodes of the graph, and when everything is filed
under its own uid.

No call can break this (`Consistent.call`), so it holds of every graph that calls can make, and a
graph that is read from a dump or answers a query is one of those
(`consistent_of_calls_of_dump_of_query`).
-/

namespace PropertyGraph

open Query

namespace Store

/-- **Adjacency and edges agree.** -/
structure Consistent (s : Store) : Prop where
  /-- Each node is filed under its own uid. -/
  uid_node : ∀ {u n}, s.nodes.get? u = some n → n.uid = u
  /-- Each edge is filed under its own uid. -/
  uid_edge : ∀ {x e}, s.edges.get? x = some e → e.uid = x
  /-- Source and target of each edge are nodes of the graph. -/
  hasNode_nodeAt : ∀ {x e} role, s.edges.get? x = some e → s.hasNode (e.nodeAt role)
  /-- A node notes exactly the edges that leave it and those that enter it. -/
  mem_noted : ∀ {u n} role {x}, s.nodes.get? u = some n →
    (x ∈ (n.noted role).members ↔ ∃ e, s.edges.get? x = some e ∧ e.nodeAt role = u)

namespace Consistent

variable {s s' : Store}

/-- The empty graph is consistent. -/
theorem empty : Consistent Store.empty where
  uid_node h := nomatch h
  uid_edge h := nomatch h
  hasNode_nodeAt _ h := nomatch h
  mem_noted _ _ h := nomatch h

/-- Nodes are listed in order of their own uids. -/
theorem uids_nodes (h : s.Consistent) : s.nodes.values.map (·.uid) = s.nodes.keys :=
  Table.map_values h.uid_node

/-- So are edges. -/
theorem uids_edges (h : s.Consistent) : s.edges.values.map (·.uid) = s.edges.keys :=
  Table.map_values h.uid_edge

/-! ## Changes of the nodes -/

/-- Putting a node under its uid keeps a graph consistent if what the node notes fits the
edges. -/
theorem insertNode (h : s.Consistent) {n : Node}
    (fits : ∀ role x, x ∈ (n.noted role).members ↔
      ∃ e, s.edges.get? x = some e ∧ e.nodeAt role = n.uid) :
    Consistent { s with nodes := s.nodes.insert n.uid n } where
  uid_node {u m} hm := by
    rw [Table.get?_insert] at hm
    split at hm
    next eq => rw [← Option.some.inj hm, eq]
    next => exact h.uid_node hm
  uid_edge := h.uid_edge
  hasNode_nodeAt role he := by
    obtain ⟨m, hm⟩ := hasNode_iff.1 (h.hasNode_nodeAt role he)
    refine hasNode_iff.2 ?_
    rw [Table.get?_insert]
    split
    · exact ⟨n, rfl⟩
    · exact ⟨m, hm⟩
  mem_noted {u m} role x hm := by
    rw [Table.get?_insert] at hm
    split at hm
    next eq => rw [← Option.some.inj hm, eq]; exact fits role x
    next => exact h.mem_noted role hm

/-- No edge is at a node that is not there. -/
theorem nodeAt_ne_of_get?_eq_none (h : s.Consistent) {u x : String} {e : Edge} (role : Endpoint)
    (absent : s.nodes.get? u = none) (he : s.edges.get? x = some e) : e.nodeAt role ≠ u := by
  rintro rfl
  obtain ⟨n, hn⟩ := hasNode_iff.1 (h.hasNode_nodeAt role he)
  rw [absent] at hn
  nomatch hn

/-- Adding a node keeps a graph consistent: there is no edge yet that could be at it. -/
theorem addNode (h : s.Consistent) {u label : String} {properties : PropertyMap} {n : Node}
    (ok : s.addNode u label properties = .ok (n, s')) : s'.Consistent := by
  obtain ⟨absent, rfl, rfl⟩ := addNode_eq_ok_iff.1 ok
  refine h.insertNode (n := .isolated u label properties) fun role x => ?_
  refine iff_of_false (by cases role <;> simp [Node.isolated, Node.noted]) ?_
  rintro ⟨e, he, at_u⟩
  exact h.nodeAt_ne_of_get?_eq_none role absent he at_u

/-- So does replacing one. -/
theorem updateNode (h : s.Consistent) {r n : Node} (ok : s.updateNode r = .ok (n, s')) :
    s'.Consistent := by
  obtain ⟨m, hm, rfl, rfl⟩ := updateNode_eq_ok_iff.1 ok
  -- the node that is put back notes what it noted, whatever the replacement carries
  have same : ∀ role, (m.overwrite r).noted role = m.noted role := fun role => by
    cases role <;> rfl
  have fits := fun role x => h.mem_noted role (x := x) hm
  rw [← h.uid_node hm] at fits ⊢
  refine h.insertNode (n := m.overwrite r) fun role x => ?_
  rw [same]
  exact fits role x

/-- No edge is at a node of degree zero. -/
theorem nodeAt_ne_of_degree_eq_zero (h : s.Consistent) {u x : String} {n : Node} {e : Edge}
    (role : Endpoint) (hn : s.nodes.get? u = some n) (bare : n.degree = 0)
    (he : s.edges.get? x = some e) : e.nodeAt role ≠ u := by
  intro at_u
  have noted := (h.mem_noted role hn).2 ⟨e, he, at_u⟩
  obtain ⟨into, out⟩ := Nat.add_eq_zero_iff.1 bare
  cases role with
  | source => exact Table.size_eq_zero_iff.1 out x noted
  | target => exact Table.size_eq_zero_iff.1 into x noted

/-- So does removing one that notes no edge. -/
theorem removeNode (h : s.Consistent) {u : String} (ok : s.removeNode u = .ok s') :
    s'.Consistent := by
  obtain ⟨n, hn, bare, rfl⟩ := removeNode_eq_ok_iff.1 ok
  have stays : ∀ {v m}, (s.nodes.erase u).get? v = some m → s.nodes.get? v = some m := by
    intro v m hm
    rw [Table.get?_erase] at hm
    split at hm
    · nomatch hm
    · exact hm
  constructor
  case uid_node => exact fun hm => h.uid_node (stays hm)
  case uid_edge => exact h.uid_edge
  case hasNode_nodeAt =>
    intro x e role he
    obtain ⟨m, hm⟩ := hasNode_iff.1 (h.hasNode_nodeAt role he)
    refine hasNode_iff.2 ⟨m, ?_⟩
    rw [Table.get?_erase, if_neg (h.nodeAt_ne_of_degree_eq_zero role hn bare he)]
    exact hm
  case mem_noted => exact fun role x hm => h.mem_noted role (stays hm)

/-! ## Changes of the edges -/

/-- So does linking an edge with a new uid between nodes of the graph. -/
theorem link (h : s.Consistent) {e : Edge} (ends : ∀ role, s.hasNode (e.nodeAt role))
    (fresh : s.edges.get? e.uid = none) : (s.link e).Consistent := by
  have edges : ∀ x, (s.link e).edges.get? x = if x = e.uid then some e else s.edges.get? x :=
    fun x => Table.get?_insert s.edges e.uid x e
  constructor
  case uid_node =>
    intro u n hn
    obtain ⟨m, hm, uid, -⟩ := exists_of_get?_link hn
    rw [uid]
    exact h.uid_node hm
  case uid_edge =>
    intro x f hf
    rw [edges] at hf
    split at hf
    next eq => rw [← Option.some.inj hf, eq]
    next => exact h.uid_edge hf
  case hasNode_nodeAt =>
    intro x f role hf
    rw [hasNode_link]
    rw [edges] at hf
    split at hf
    next => exact Option.some.inj hf ▸ ends role
    next => exact h.hasNode_nodeAt role hf
  case mem_noted =>
    intro u n role x hn
    obtain ⟨m, hm, -, noted⟩ := exists_of_get?_link hn
    rw [noted, edges]
    -- under the uid of `e` there was nothing, and under every other uid nothing changes
    by_cases eq : x = e.uid
    · subst eq
      have before : e.uid ∉ (m.noted role).members := by
        rw [h.mem_noted role hm, fresh]
        simp
      by_cases at_u : u = e.nodeAt role
      · simp [at_u, Table.mem_keys_insert]
      · simp [at_u, before, Ne.symm at_u]
    · rw [if_neg eq, ← h.mem_noted role hm]
      split
      next => rw [Table.mem_keys_insert, or_iff_right eq]
      next => rfl

/-- Adding an edge links it only if it can be linked. -/
theorem addEdge (h : s.Consistent) {e e' : Edge} (ok : s.addEdge e = .ok (e', s')) :
    s'.Consistent := by
  obtain ⟨source, target, fresh, -, rfl⟩ := addEdge_eq_ok_iff.1 ok
  refine h.link (fun role => ?_) fresh
  cases role with
  | source => exact source
  | target => exact target

/-- Unlinking an edge keeps a graph consistent, too. -/
theorem unlink (h : s.Consistent) {x : String} {e : Edge} (he : s.edges.get? x = some e) :
    (s.unlink x e).Consistent := by
  have edges : ∀ y f, (s.unlink x e).edges.get? y = some f ↔ y ≠ x ∧ s.edges.get? y = some f := by
    intro y f
    rw [show (s.unlink x e).edges = s.edges.erase x from rfl, Table.get?_erase]
    split <;> simp_all
  constructor
  case uid_node =>
    intro u n hn
    obtain ⟨m, hm, uid, -⟩ := exists_of_get?_unlink hn
    rw [uid]
    exact h.uid_node hm
  case uid_edge => exact fun hf => h.uid_edge ((edges _ _).1 hf).2
  case hasNode_nodeAt =>
    intro y f role hf
    rw [hasNode_unlink]
    exact h.hasNode_nodeAt role ((edges y f).1 hf).2
  case mem_noted =>
    intro u n role y hn
    obtain ⟨m, hm, -, noted⟩ := exists_of_get?_unlink hn
    simp only [noted, edges, and_assoc, exists_and_left, ← h.mem_noted role hm]
    split
    next => rw [Table.mem_keys_erase]
    next ne =>
      -- a node at neither end of `e` had not noted it, so nothing is left to forget
      refine (and_iff_right_of_imp fun before => ?_).symm
      rintro rfl
      obtain ⟨f, hf, at_u⟩ := (h.mem_noted role hm).1 before
      rw [he] at hf
      exact ne (Option.some.inj hf ▸ at_u.symm)

/-- Whether there is an edge to remove or not, the graph stays consistent. -/
theorem removeEdge (h : s.Consistent) (x : String) : (s.removeEdge x).2.Consistent := by
  cases he : s.edges.get? x with
  | none => rw [removeEdge_of_none he]; exact h
  | some e => rw [removeEdge_of_some he]; exact h.unlink he

/-! ## Calls -/

/-- Wherever a load stops, the graph is consistent. -/
theorem load (h : s.Consistent) (d : Dump) : (s.load d).2.Consistent := by
  have nodes : (s.loadNodes d.nodes).2.Consistent := by
    refine replay_induction (fun s n s' hs ok => ?_) h d.nodes
    obtain ⟨⟨m, t⟩, added, rfl⟩ := exists_of_map_eq_ok ok
    exact hs.addNode added
  have edges : ∀ {t : Store}, t.Consistent → (t.loadEdges d.edges).2.Consistent := by
    intro t ht
    refine replay_induction (fun s e s' hs ok => ?_) ht d.edges
    obtain ⟨⟨f, t⟩, added, rfl⟩ := exists_of_map_eq_ok ok
    exact hs.addEdge added
  unfold Store.load
  split
  next eq => rw [eq] at nodes; exact nodes
  next t eq =>
    rw [eq] at nodes
    specialize edges nodes
    split
    next eq => rw [eq] at edges; exact edges
    next eq => rw [eq] at edges; exact edges

/-- **Every call keeps a graph consistent,** also one that is refused. -/
theorem call (h : s.Consistent) (c : Call) : (s.call c).2.Consistent := by
  cases c with
  | addNode u label properties =>
    show (s.outcome _ (s.addNode u label properties)).2.Consistent
    cases ok : s.addNode u label properties with
    | ok a => exact h.addNode ok
    | error e => exact h
  | updateNode r =>
    show (s.outcome _ (s.updateNode r)).2.Consistent
    cases ok : s.updateNode r with
    | ok a => exact h.updateNode ok
    | error e => exact h
  | removeNode u =>
    show (s.outcome _ (((), ·) <$> s.removeNode u)).2.Consistent
    cases ok : s.removeNode u with
    | ok a => exact h.removeNode ok
    | error e => exact h
  | addEdge e =>
    show (s.outcome _ (s.addEdge e)).2.Consistent
    cases ok : s.addEdge e with
    | ok a => exact h.addEdge ok
    | error e => exact h
  | removeEdge x => exact h.removeEdge x
  | load d => exact h.load d

/-- By induction on the calls, so it is after any of them. -/
theorem after (h : s.Consistent) (calls : List Call) : (s.after calls).Consistent := by
  induction calls generalizing s with
  | nil => exact h
  | cons c rest ih => exact ih (h.call c)

end Consistent

/-- Every graph that calls can make is consistent. -/
theorem Reachable.consistent {s : Store} (h : s.Reachable) : s.Consistent :=
  h.rec_calls .empty fun _ c hs => hs.call c

/-! ## Graphs from dumps and queries -/

/-- Adding a node is a call. -/
theorem Reachable.addNode {s s' : Store} (h : s.Reachable) {u label : String}
    {properties : PropertyMap} {n : Node} (ok : s.addNode u label properties = .ok (n, s')) :
    s'.Reachable := by
  have := h.call (.addNode u label properties)
  rwa [Store.call, ok] at this

/-- A graph read from a dump is what one call makes of the empty graph. -/
theorem Reachable.ofDump {d : Dump} {s : Store} (ok : ofDump d = .ok s) : s.Reachable := by
  have := Reachable.empty.call (.load d)
  unfold Store.ofDump at ok
  split at ok
  next eq => rw [Store.call, eq] at this; exact Except.ok.inj ok ▸ this
  next => cases ok

/-- The answer to a plan is made by calls that add nodes. -/
theorem Reachable.gather {filters : List Filter} {nodes : List Node} {seen : TextSet}
    {s r : Store} (h : s.Reachable) (ok : Plan.gather filters seen s nodes = .ok r) :
    r.Reachable := by
  fun_induction Plan.gather filters seen s nodes with
  | case1 => exact Except.ok.inj ok ▸ h
  | case2 _ _ _ _ _ ih => exact ih h ok
  | case3 _ _ _ _ _ _ _ _ added ih => exact ih (h.addNode added) ok
  | case4 => nomatch ok
  | case5 _ _ _ _ _ _ ih => exact ih h ok

/-- An answer is what calls make of the empty graph: one call for each copied node. -/
theorem Reachable.execute {p : Plan} {s r : Store} (ok : p.execute s = .ok r) : r.Reachable := by
  unfold Plan.execute at ok
  split at ok
  · exact Except.ok.inj ok ▸ .empty
  · exact Reachable.empty.gather ok

/-- A query is answered by executing the plan that it is read as. -/
theorem execute_of_query {s r : Store} {text : String} (ok : s.query text = .ok r) :
    ∃ p, Plan.read text = .ok p ∧ p.execute s = .ok r := by
  unfold query at ok
  cases read : Plan.read text with
  | error e => rw [read] at ok; nomatch ok
  | ok p =>
    rw [read] at ok
    refine ⟨p, rfl, ?_⟩
    have ok : (p.execute s).mapError QueryError.graph = .ok r := ok
    cases ran : p.execute s with
    | error e => rw [ran] at ok; nomatch ok
    | ok r' => rw [ran] at ok; exact congrArg Except.ok (Except.ok.inj ok)

/-- **Adjacency is a view of the edges.** Every graph that a history of calls makes from the empty
one is consistent, refused calls and broken off loads included; and so is every graph that is read
from a dump or answers a query, each of which calls could have made as well. -/
theorem consistent_of_calls_of_dump_of_query :
    (∀ calls, (empty.after calls).Consistent) ∧
    (∀ d s, ofDump d = .ok s → s.Reachable ∧ s.Consistent) ∧
    (∀ (s : Store) p r, Plan.execute p s = .ok r → r.Reachable ∧ r.Consistent) ∧
    (∀ (s : Store) text r, s.query text = .ok r → r.Reachable ∧ r.Consistent) := by
  have both : ∀ {s : Store}, s.Reachable → s.Reachable ∧ s.Consistent :=
    fun h => ⟨h, h.consistent⟩
  refine ⟨fun calls => Reachable.consistent ⟨calls, rfl⟩, fun d s ok => both (.ofDump ok),
    fun s p r ok => both (.execute ok), fun s text r ok => ?_⟩
  obtain ⟨p, -, ok⟩ := execute_of_query ok
  exact both (.execute ok)

/-- A dump of two edges from a node to itself that lists another edge at it, the graph read from
it, and what a plan and a query bring out of a graph of one node. -/
theorem consistent_of_loops :
    (∃ s, ofDump ⟨[⟨"a", "L", .empty, ["x"], []⟩],
      [⟨"e", "a", "L", "a", .empty⟩, ⟨"f", "a", "L", "a", .empty⟩]⟩ = .ok s ∧ s.Consistent) ∧
    (∃ r, Plan.execute ⟨[⟨[⟨"n", [], .empty⟩]⟩], .ofList ["n"]⟩
      (empty.after [.addNode "a" "L" .empty]) = .ok r ∧ r.Consistent) ∧
    ∃ r, (empty.after [.addNode "a" "L" .empty]).query "MATCH (n) RETURN n" = .ok r ∧
      r.Consistent := by
  obtain ⟨-, of_dump, of_plan, of_query⟩ := consistent_of_calls_of_dump_of_query
  refine ⟨Exists.imp (fun s ok => ⟨ok, (of_dump _ s ok).2⟩) ?_,
    Exists.imp (fun r ok => ⟨ok, (of_plan _ _ r ok).2⟩) ?_,
    Exists.imp (fun r ok => ⟨ok, (of_query _ _ r ok).2⟩) ?_⟩
  · exact ⟨_, rfl⟩
  · exact ⟨_, rfl⟩
  · exact ⟨_, rfl⟩

end Store

end PropertyGraph
