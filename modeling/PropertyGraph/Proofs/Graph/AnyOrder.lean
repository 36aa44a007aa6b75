import Mathlib.Data.List.Nodup
import PropertyGraph.Proofs.Graph.Loading
import PropertyGraph.Proofs.Query.Answers

/-!
# Nodes and edges in any order

A graph here lists its nodes and edges by ascending uid. A store that keeps them in a hash table
goes through them in an order of its own, which no caller can foresee. So let any rearrangement of
the nodes and of the edges be given. What is listed in order of uid has to be sorted then, and the
answer to a plan, which is a graph, comes about by going through the nodes as they stand.

Neither makes a difference (`Reachable.same_in_any_order`), since uids tell nodes from nodes and
edges from edges: there is one order in which the uids ascend (`sortBy_eq_of_perm`), and no second
node that could be copied in place of another (`Plan.gather_eq_of_perm`).
-/

namespace PropertyGraph

/-! ## Sorting by name -/

/-- Sorts by name. -/
def sortBy {α : Type} (name : α → String) (l : List α) : List α :=
  l.mergeSort fun a b => name a ≤ name b

/-- Names do not descend in a list that is sorted by them. -/
theorem pairwise_sortBy {α : Type} (name : α → String) (l : List α) :
    (sortBy name l).Pairwise fun a b => name a ≤ name b := by
  have sorted : (sortBy name l).Pairwise fun a b => decide (name a ≤ name b) :=
    List.pairwise_mergeSort (fun a b c => by simpa using String.le_trans)
      (fun a b => by simpa using String.le_total (name a) (name b)) l
  exact sorted.imp of_decide_eq_true

/-- **There is one order in which names ascend**, and sorting finds it from any other. -/
theorem sortBy_eq_of_perm {α : Type} {name : α → String} {l m : List α} (rearranged : l.Perm m)
    (ascend : (m.map name).Pairwise (· < ·)) : sortBy name l = m := by
  have perm : (sortBy name l).Perm m := (List.mergeSort_perm _ _).trans rearranged
  have nodup : (m.map name).Nodup := ascend.imp fun lt => String.ne_of_lt lt
  refine List.Perm.eq_of_pairwise (fun a b ha hb ab ba => ?_) (pairwise_sortBy name l)
    ((List.pairwise_map.1 ascend).imp Std.le_of_lt) perm
  exact List.inj_on_of_nodup_map nodup (perm.mem_iff.1 ha) hb (String.le_antisymm ab ba)

/-! ## Answers to plans -/

namespace Query.Plan

/-- A uid is looked for with the same result in any order. -/
theorem find?_eq_of_perm {l m : List Node} (rearranged : l.Perm m)
    (distinct : (m.map (·.uid)).Nodup) (u : String) (accepted : Node → Bool) :
    l.find? (fun n => n.uid = u && accepted n) = m.find? (fun n => n.uid = u && accepted n) := by
  have unique : ∀ a ∈ m, ∀ b ∈ m, (a.uid = u && accepted a) → (b.uid = u && accepted b) →
      a = b := by
    intro a ha b hb fa fb
    simp only [Bool.and_eq_true, decide_eq_true_eq] at fa fb
    exact List.inj_on_of_nodup_map distinct ha hb (fa.1.trans fb.1.symm)
  refine Option.ext fun n => ?_
  rw [find?_eq_some_iff_of_unique, find?_eq_some_iff_of_unique unique, rearranged.mem_iff]
  intro a ha b hb
  exact unique a (rearranged.mem_iff.1 ha) b (rearranged.mem_iff.1 hb)

/-- **Going through nodes in any order copies the same ones.** -/
theorem gather_eq_of_perm {filters : List Filter} {seen : TextSet} {result : Store}
    {l m : List Node} (rearranged : l.Perm m) (distinct : (m.map (·.uid)).Nodup)
    (inv : ∀ u, seen.contains u = result.hasNode u) :
    gather filters seen result l = gather filters seen result m := by
  obtain ⟨r, ok, edges, nodes⟩ := gather_eq_ok filters seen result l inv
  obtain ⟨r', ok', edges', nodes'⟩ := gather_eq_ok filters seen result m inv
  have same : r = r' := by
    refine Store.ext_get? (fun u => ?_) fun x => ?_
    · rw [nodes, nodes', find?_eq_of_perm rearranged distinct]
    · rw [edges, edges']
  rw [ok, ok', same]

end Query.Plan

/-! ## Graphs -/

namespace Store

open Query

variable {s : Store}

/-- **The order in which a graph keeps its nodes and edges does not show.** Whatever order they are
in, sorted by uid they make up the dump, those of them that a filter accepts are what is selected by
it, and every plan is answered by the same graph. -/
theorem Reachable.same_in_any_order (h : s.Reachable) {nodes : List Node} {edges : List Edge}
    (nodes_perm : nodes.Perm s.nodes.values) (edges_perm : edges.Perm s.edges.values) :
    s.dump = ⟨sortBy (·.uid) (nodes.map .ofNode), sortBy (·.uid) edges⟩ ∧
    (∀ f : Filter, s.nodesBy f = sortBy (·.uid) (nodes.filter f.acceptsNode) ∧
      s.edgesBy f = sortBy (·.uid) (edges.filter f.acceptsEdge)) ∧
    ∀ p : Plan, p.execute s =
      if p.filters.isEmpty then .ok .empty else Plan.gather p.filters .empty .empty nodes := by
  have consistent := h.consistent
  refine ⟨?_, fun f => ⟨?_, ?_⟩, fun p => ?_⟩
  · have listed := sortBy_eq_of_perm (nodes_perm.map ListedNode.ofNode)
      (consistent.uids_dump ▸ s.nodes.keys_ascending)
    have sorted := sortBy_eq_of_perm edges_perm (consistent.uids_edges ▸ s.edges.keys_ascending)
    rw [listed, sorted, dump]
  · refine (sortBy_eq_of_perm (nodes_perm.filter _) ?_).symm
    rw [Table.map_filter_values consistent.uid_node]
    exact Table.keys_ascending _
  · refine (sortBy_eq_of_perm (edges_perm.filter _) ?_).symm
    rw [Table.map_filter_values consistent.uid_edge]
    exact Table.keys_ascending _
  · have distinct : (s.nodes.values.map (·.uid)).Nodup :=
      consistent.uids_nodes ▸ s.nodes.nodup_keys
    rw [Plan.execute, Plan.gather_eq_of_perm nodes_perm distinct fun u => rfl]

end Store

end PropertyGraph
