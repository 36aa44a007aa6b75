import Mathlib.Logic.ExistsUnique
import PropertyGraph.Proofs.Graph.Bookkeeping
import PropertyGraph.Proofs.Graph.Loading
import PropertyGraph.Proofs.Text.Encoding

/-!
# Dumps as a canonical form

A graph has a history, and its dump shows none of it. Two graphs have one dump exactly if they hold
the same nodes and edges, however they came by them; and every dump is laid out in one way
(`Dump.Canonical`): nodes, edges and the uids listed at each node ascend by their bytes, and every
edge is listed once among those that leave a node and once among those that enter one.
-/

namespace PropertyGraph

/-! ## Canonical dumps -/

/-- The listed uids of the edges that have a node at an end. -/
def ListedNode.listed (m : ListedNode) : Endpoint → List String
  | .source => m.outEdges
  | .target => m.inEdges

@[simp] theorem ListedNode.listed_ofNode (n : Node) (role : Endpoint) :
    (ofNode n).listed role = (n.noted role).members := by
  cases role <;> rfl

/-- Uids in strictly ascending order of their bytes. -/
def BytesAscend (uids : List String) : Prop :=
  uids.Pairwise fun a b => Utf8.ofString a < Utf8.ofString b

/-- Strings are ordered as their bytes are, so the keys of a table ascend by bytes. -/
theorem Table.bytesAscend_keys {α : Type} (t : Table α) : BytesAscend t.keys :=
  t.keys_ascending.imp Utf8.ofString_lt_ofString

/-- **A dump in canonical form.** -/
structure Dump.Canonical (d : Dump) : Prop where
  /-- The nodes ascend. -/
  nodes : BytesAscend (d.nodes.map (·.uid))
  /-- The edges ascend. -/
  edges : BytesAscend (d.edges.map (·.uid))
  /-- The edges that are listed at a node ascend, those that leave it and those that enter it. -/
  listed : ∀ m ∈ d.nodes, ∀ role, BytesAscend (m.listed role)
  /-- One node lists an edge among those that leave it, and one among those that enter it. -/
  once : ∀ e ∈ d.edges, ∀ role, ∃! m, m ∈ d.nodes ∧ e.uid ∈ m.listed role

namespace Store

variable {s t : Store}

/-! ## What a dump holds -/

/-- The nodes of a dump are those of the graph, each under its own uid. -/
theorem Consistent.mem_nodes_dump (h : s.Consistent) {m : ListedNode} :
    m ∈ s.dump.nodes ↔ ∃ n, s.nodes.get? m.uid = some n ∧ .ofNode n = m := by
  rw [dump, List.mem_map]
  simp only [Table.mem_values_iff]
  constructor
  · rintro ⟨n, ⟨u, hn⟩, rfl⟩
    obtain rfl := h.uid_node hn
    exact ⟨n, hn, rfl⟩
  · rintro ⟨n, hn, eq⟩
    exact ⟨n, ⟨_, hn⟩, eq⟩

/-- A node lists the edges that say they are at it. -/
theorem Consistent.mem_listed_iff (h : s.Consistent) {m : ListedNode} (hm : m ∈ s.dump.nodes)
    (role : Endpoint) {x : String} :
    x ∈ m.listed role ↔ ∃ e, s.edges.get? x = some e ∧ e.nodeAt role = m.uid := by
  obtain ⟨n, hn, rfl⟩ := h.mem_nodes_dump.1 hm
  rw [ListedNode.listed_ofNode]
  exact h.mem_noted role hn

theorem Consistent.canonical_dump (h : s.Consistent) : s.dump.Canonical where
  nodes := h.uids_dump ▸ s.nodes.bytesAscend_keys
  edges := h.uids_edges.symm ▸ s.edges.bytesAscend_keys
  listed m hm role := by
    obtain ⟨n, -, rfl⟩ := h.mem_nodes_dump.1 hm
    rw [ListedNode.listed_ofNode]
    exact (n.noted role).bytesAscend_keys
  once e he role := by
    have filed := h.mem_values_edges.1 ⟨he, rfl⟩
    obtain ⟨n, hn⟩ := hasNode_iff.1 (h.hasNode_nodeAt role filed)
    have own : .ofNode n ∈ s.dump.nodes :=
      h.mem_nodes_dump.2 ⟨n, by rwa [← h.uid_node hn] at hn, rfl⟩
    refine ⟨.ofNode n, ⟨own, (h.mem_listed_iff own role).2 ⟨e, filed, (h.uid_node hn).symm⟩⟩, ?_⟩
    -- another node that lists `e` has the uid that `e` names, so it is the same node
    rintro m ⟨hm, at_m⟩
    obtain ⟨f, hf, uid⟩ := (h.mem_listed_iff hm role).1 at_m
    obtain rfl : e = f := Option.some.inj (filed.symm.trans hf)
    obtain ⟨n', hn', rfl⟩ := h.mem_nodes_dump.1 hm
    rw [← uid, hn] at hn'
    rw [Option.some.inj hn']

/-! ## What a dump tells -/

/-- What is known of a node without adjacency can be read off the dump. -/
theorem Consistent.description_eq_some_iff (h : s.Consistent) {u : String} {d : Description} :
    (s.nodes.get? u).map Node.description = some d ↔
      ∃ m ∈ s.dump.nodes, m.uid = u ∧ m.isolated.description = d := by
  rw [Option.map_eq_some_iff]
  constructor
  · rintro ⟨n, hn, rfl⟩
    obtain rfl := h.uid_node hn
    exact ⟨.ofNode n, h.mem_nodes_dump.2 ⟨n, hn, rfl⟩, rfl, rfl⟩
  · rintro ⟨m, hm, rfl, rfl⟩
    obtain ⟨n, hn, rfl⟩ := h.mem_nodes_dump.1 hm
    exact ⟨n, hn, rfl⟩

/-- Graphs are told apart by their ledgers: adjacency adds nothing. -/
theorem Consistent.dump_eq_iff_ledger (hs : s.Consistent) (ht : t.Consistent) :
    s.dump = t.dump ↔ s.ledger = t.ledger := by
  constructor
  · intro same
    have nodes : s.ledger.nodes = t.ledger.nodes := Table.ext_get? fun u => Option.ext fun d => by
      rw [get?_ledger_nodes, get?_ledger_nodes, hs.description_eq_some_iff,
        ht.description_eq_some_iff, same]
    have edges : s.edges = t.edges := Table.ext_get? fun x => Option.ext fun e => by
      rw [← hs.mem_values_edges, ← ht.mem_values_edges,
        show s.edges.values = t.edges.values from congrArg Dump.edges same]
    rw [ledger, ledger, edges]
    exact congrArg (Ledger.mk · _) nodes
  · intro same
    have told := hs.tell_ledger .dump
    rw [same, ht.tell_ledger .dump] at told
    exact (Reply.dump.inj (Except.ok.inj told)).symm

/-- Ledgers are equal if they have the same descriptions of nodes and connections of edges. -/
theorem ledger_eq_iff : s.ledger = t.ledger ↔
    (∀ u, (s.nodes.get? u).map Node.description = (t.nodes.get? u).map Node.description) ∧
    ∀ x, (s.edges.get? x).map Edge.connection = (t.edges.get? x).map Edge.connection := by
  simp only [← get?_ledger_nodes, ← get?_ledger_edges]
  constructor
  · intro same
    rw [same]
    exact ⟨fun _ => rfl, fun _ => rfl⟩
  · rintro ⟨nodes, edges⟩
    show Ledger.mk s.ledger.nodes s.ledger.edges = Ledger.mk t.ledger.nodes t.ledger.edges
    rw [Table.ext_get? nodes, Table.ext_get? edges]

/-- **A dump shows what a graph holds and nothing else.** Two graphs, whatever calls have made them,
have the same dump exactly if the same uids are nodes of both, with the same labels and properties,
and the same uids are edges of both, with the same ends, labels and properties. All dumps are laid
out in one way. -/
theorem dump_eq_iff_and_canonical (hs : s.Reachable) (ht : t.Reachable) :
    (s.dump = t.dump ↔
      (∀ u, (s.nodes.get? u).map Node.description = (t.nodes.get? u).map Node.description) ∧
      ∀ x, (s.edges.get? x).map Edge.connection = (t.edges.get? x).map Edge.connection) ∧
    s.dump.Canonical := by
  rw [hs.consistent.dump_eq_iff_ledger ht.consistent, ledger_eq_iff]
  exact ⟨.rfl, hs.consistent.canonical_dump⟩

/-- Two nodes with an edge each way, made in one go; and made in another order after an edge that
was taken away again, a node that was refused and a label that was changed. One uid is not ASCII. -/
theorem dump_eq_iff_and_canonical_of_detours :
    let s := empty.after [.addNode "b" "L" .empty, .addNode "é" "M" .empty,
      .addEdge ⟨"x", "b", "K", "é", .empty⟩, .addEdge ⟨"y", "é", "K", "b", .empty⟩]
    let t := empty.after [.addNode "é" "L" .empty, .addNode "b" "L" .empty,
      .addEdge ⟨"x", "b", "N", "b", .empty⟩, .addEdge ⟨"y", "é", "K", "b", .empty⟩,
      .addNode "b" "M" .empty, .removeEdge "x", .updateNode (.isolated "é" "M" .empty),
      .addEdge ⟨"x", "b", "K", "é", .empty⟩]
    s.Reachable ∧ t.Reachable ∧ s.dump = t.dump ∧
      (∀ u, (s.nodes.get? u).map Node.description = (t.nodes.get? u).map Node.description) ∧
      t.dump.Canonical := by
  intro s t
  have hs : s.Reachable := ⟨_, rfl⟩
  have ht : t.Reachable := ⟨_, rfl⟩
  have same : s.dump = t.dump := by
    unfold s t
    rfl
  obtain ⟨iff, -⟩ := dump_eq_iff_and_canonical hs ht
  obtain ⟨-, canonical⟩ := dump_eq_iff_and_canonical ht hs
  exact ⟨hs, ht, same, (iff.1 same).1, canonical⟩

end Store

end PropertyGraph
