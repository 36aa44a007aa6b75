import PropertyGraph.Proofs.Graph.Bookkeeping

/-!
# Insertions and removals undo each other

What has just been added can be removed, and what has just been removed can be added again; either
way the graph is the one it was, with all that is noted at its nodes (`undone_calls_restore`).

In a ledger this is no more than a law of tables. That adjacency comes back too is not: it takes
that a new edge has been noted nowhere, and that a removed one is forgotten at the very nodes at
which it will be noted again. A consistent graph can be told from its ledger, which is how the law
of tables carries over.
-/

namespace PropertyGraph

namespace Store

variable {s : Store}

/-! ## Edges -/

/-- An edge that is linked and unlinked leaves no trace, also at the nodes it was noted at. -/
theorem Consistent.unlink_link (h : s.Consistent) {e : Edge}
    (ends : ∀ role, s.hasNode (e.nodeAt role)) (fresh : s.edges.get? e.uid = none) :
    (s.link e).unlink e.uid e = s := by
  have linked : (s.link e).edges.get? e.uid = some e := by
    rw [edges_link, Table.get?_insert, if_pos rfl]
  have absent : s.ledger.edges.get? e.uid = none := by
    rw [get?_ledger_edges, fresh]
    rfl
  refine ((h.link ends fresh).unlink linked).eq_of_ledger_eq h ?_
  rw [ledger_unlink, ledger_link, Table.erase_insert _ absent]

/-- An edge that is unlinked and linked again is noted where it was. -/
theorem Consistent.link_unlink (h : s.Consistent) {x : String} {e : Edge}
    (he : s.edges.get? x = some e) : (s.unlink x e).link e = s := by
  obtain rfl := h.uid_edge he
  have ends : ∀ role, (s.unlink e.uid e).hasNode (e.nodeAt role) := fun role => by
    rw [hasNode_unlink]
    exact h.hasNode_nodeAt role he
  have free : (s.unlink e.uid e).edges.get? e.uid = none := by
    rw [edges_unlink, Table.get?_erase, if_pos rfl]
  have present : s.ledger.edges.get? e.uid = some e.connection := by
    rw [get?_ledger_edges, he]
    rfl
  refine ((h.unlink he).link ends free).eq_of_ledger_eq h ?_
  rw [ledger_link, ledger_unlink, Table.insert_erase present]

/-! ## Nodes -/

/-- A node that is added and removed leaves no trace. -/
theorem erase_insertNode {u : String} (n : Node) (absent : s.nodes.get? u = none) :
    Store.mk ((s.nodes.insert u n).erase u) s.edges = s := by
  rw [Table.erase_insert n absent]

/-- A node that no edge touches has nothing to lose by being removed and added again. -/
theorem Consistent.insertNode_erase (h : s.Consistent) {u : String} {n : Node}
    (hn : s.nodes.get? u = some n) (bare : n.degree = 0) :
    n = .isolated u n.label n.properties ∧
      Store.mk ((s.nodes.erase u).insert u (.isolated u n.label n.properties)) s.edges = s := by
  have isolated : n = .isolated u n.label n.properties := by
    obtain ⟨into, out⟩ := Nat.add_eq_zero_iff.1 bare
    obtain ⟨uid, label, properties, _, _⟩ := n
    obtain rfl : uid = u := h.uid_node hn
    obtain rfl := Table.eq_empty_of_size_eq_zero into
    obtain rfl := Table.eq_empty_of_size_eq_zero out
    rfl
  refine ⟨isolated, ?_⟩
  rw [← isolated, Table.insert_erase hn]

/-! ## Calls -/

/-- **Insertions and removals undo each other.** Whatever calls have made the graph: an edge that
has been added can be removed, an edge that has been removed can be added again as it was, a node
that has been added can be removed, and a node that has been removed can be added again with the
label and properties that it had. The second call always goes through, and the graph it leaves is
the one in front of the first, adjacency included. -/
theorem undone_calls_restore (hs : s.Reachable) :
    (∀ e a s', s.call (.addEdge e) = (.ok a, s') →
      s'.call (.removeEdge e.uid) = (.ok (.found true), s)) ∧
    (∀ x s', s.call (.removeEdge x) = (.ok (.found true), s') →
      ∃ e, s.edge x = .ok e ∧ e.uid = x ∧ s'.call (.addEdge e) = (.ok (.edge e), s)) ∧
    (∀ u label properties a s', s.call (.addNode u label properties) = (.ok a, s') →
      s'.call (.removeNode u) = (.ok .done, s)) ∧
    ∀ u a s', s.call (.removeNode u) = (.ok a, s') →
      ∃ n, s.node u = .ok n ∧
        s'.call (.addNode u n.label n.properties) = (.ok (.node n), s) := by
  have h := hs.consistent
  refine ⟨?addEdge, ?removeEdge, ?addNode, ?removeNode⟩
  case addEdge =>
    intro e a s' made
    obtain ⟨ends, fresh, -, rfl⟩ := call_addEdge_eq_ok_iff.1 made
    refine call_removeEdge_eq_found_iff.2 ⟨e, ?_, (h.unlink_link ends fresh).symm⟩
    rw [edges_link, Table.get?_insert, if_pos rfl]
  case removeEdge =>
    intro x s' made
    obtain ⟨e, he, rfl⟩ := call_removeEdge_eq_found_iff.1 made
    obtain rfl := h.uid_edge he
    refine ⟨e, edge_eq_ok_iff.2 he, rfl, call_addEdge_eq_ok_iff.2
      ⟨fun role => ?_, ?_, rfl, (h.link_unlink he).symm⟩⟩
    · rw [hasNode_unlink]
      exact h.hasNode_nodeAt role he
    · rw [edges_unlink, Table.get?_erase, if_pos rfl]
  case addNode =>
    intro u label properties a s' made
    obtain ⟨absent, -, rfl⟩ := call_addNode_eq_ok_iff.1 made
    refine call_removeNode_eq_ok_iff.2
      ⟨.isolated u label properties, ?_, rfl, rfl, (erase_insertNode _ absent).symm⟩
    rw [Table.get?_insert, if_pos rfl]
  case removeNode =>
    intro u a s' made
    obtain ⟨n, hn, bare, -, rfl⟩ := call_removeNode_eq_ok_iff.1 made
    obtain ⟨isolated, same⟩ := h.insertNode_erase hn bare
    refine ⟨n, node_eq_ok_iff.2 hn, call_addNode_eq_ok_iff.2
      ⟨?_, congrArg Answer.node isolated, same.symm⟩⟩
    rw [Table.get?_erase, if_pos rfl]

/-- A graph with a loop and two parallel edges: a third is added and removed again, the loop is
removed and added again, and so are a node without edges and one that had not been there. -/
theorem undone_calls_restore_of_parallel_edges :
    let s := empty.after [.addNode "a" "L" .empty, .addNode "b" "L" .empty, .addNode "c" "M" .empty,
      .addEdge ⟨"x", "a", "K", "b", .empty⟩, .addEdge ⟨"y", "a", "K", "b", .empty⟩,
      .addEdge ⟨"z", "b", "K", "b", .empty⟩]
    let e : Edge := ⟨"w", "a", "K", "b", .empty⟩
    s.Reachable ∧ s.after [.addEdge e, .removeEdge "w"] = s ∧
      (∃ f, s.edge "z" = .ok f ∧ s.after [.removeEdge "z", .addEdge f] = s) ∧
      s.after [.addNode "d" "L" .empty, .removeNode "d"] = s ∧
      ∃ n, s.node "c" = .ok n ∧
        s.after [.removeNode "c", .addNode "c" n.label n.properties] = s := by
  intro s e
  have reachable : s.Reachable := ⟨_, rfl⟩
  obtain ⟨addEdge, removeEdge, addNode, removeNode⟩ := undone_calls_restore reachable
  have outcome : ∀ {c x}, (s.call c).1 = x → s.call c = (x, (s.call c).2) := fun h => Prod.ext h rfl
  have added : (s.call (.addEdge e)).1 = .ok (.edge e) := by
    unfold s e
    rfl
  have found : (s.call (.removeEdge "z")).1 = .ok (.found true) := by
    unfold s
    rfl
  have fresh : (s.call (.addNode "d" "L" .empty)).1 =
      .ok (.node (.isolated "d" "L" .empty)) := by
    unfold s
    rfl
  have bare : (s.call (.removeNode "c")).1 = .ok .done := by
    unfold s
    rfl
  clear_value s
  refine ⟨reachable, congrArg Prod.snd (addEdge _ _ _ (outcome added)), ?_,
    congrArg Prod.snd (addNode _ _ _ _ _ (outcome fresh)), ?_⟩
  · obtain ⟨f, hf, -, back⟩ := removeEdge _ _ (outcome found)
    exact ⟨f, hf, congrArg Prod.snd back⟩
  · obtain ⟨n, hn, back⟩ := removeNode _ _ _ (outcome bare)
    exact ⟨n, hn, congrArg Prod.snd back⟩

end Store

end PropertyGraph
