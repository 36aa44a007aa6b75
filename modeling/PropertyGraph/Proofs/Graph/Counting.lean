import Mathlib.Algebra.BigOperators.Group.Finset.Basic
import Mathlib.Algebra.GroupWithZero.Nat
import Mathlib.Data.List.Induction
import PropertyGraph.Proofs.Graph.Bookkeeping

/-!
# Counting a graph

The number of edges can be had from the table of edges, from the degrees of the nodes, which are
read off what the nodes note, and from the summary by label; the number of nodes with a label from
the summary and from a filter. `Store.CountsAgree` says that each way gives the same, and
`Store.counts_agree` that it holds of every graph that calls can make.

Behind all of it is one way of counting twice (`sum_count`): a list has as many members as its
distinct members occur times in all. Read with the nodes in the place of members and the edges at
them in the place of occurrences, it is the handshaking lemma (`Store.Consistent.sum_size_noted`),
which a single edge that is noted twice, or not at all, would make false. With labels it says what
the entries of a summary add up to (`Store.sum_values_tally`).
-/

namespace PropertyGraph

/-! ## Counting twice -/

/-- **Occurrences add up.** The keys may be more than occur in the list, but each may be listed
only once. -/
theorem sum_count {keys list : List String} (distinct : keys.Nodup)
    (covered : ∀ x ∈ list, x ∈ keys) : (keys.map fun k => list.count k).sum = list.length := by
  have inside : ∀ x ∈ (list : Multiset String), x ∈ keys.toFinset := fun x hx =>
    List.mem_toFinset.2 (covered x hx)
  calc (keys.map fun k => list.count k).sum
    _ = ∑ k ∈ keys.toFinset, (list : Multiset String).count k := by
      simp only [Multiset.coe_count]
      exact (List.sum_toFinset _ distinct).symm
    _ = list.length := Multiset.sum_count_eq_card inside

theorem length_filter_eq_count {α : Type} (list : List α) (key : α → String) (k : String) :
    (list.filter (key · = k)).length = (list.map key).count k := by
  rw [← List.countP_eq_length_filter, List.count, List.countP_map]
  exact List.countP_congr fun a _ => by simp

/-- A filter that names one label selects as many as there are occurrences of the label. -/
theorem Filter.length_filter_withLabel {α : Type} (list : List α) (label : α → String)
    (properties : α → PropertyMap) (wanted : String) :
    (list.filter fun a => (all.withLabel wanted).accepts (label a) (properties a)).length =
      (list.map label).count wanted := by
  rw [← length_filter_eq_count]
  refine congrArg List.length (List.filter_congr fun a _ => ?_)
  rw [Bool.eq_iff_iff, accepts_all_withLabel, decide_eq_true_iff]

namespace Store

/-! ## Summaries -/

/-- One label more adds one to its number. -/
theorem tally_concat (labels : List String) (label : String) :
    tally (labels ++ [label]) =
      (tally labels).insert label (((tally labels).get? label).getD 0 + 1) :=
  List.foldl_append

/-- **A tally counts.** What occurs has its number of occurrences as entry, and nothing else has an
entry. -/
theorem get?_tally (labels : List String) (label : String) :
    (tally labels).get? label = if label ∈ labels then some (labels.count label) else none := by
  -- from the last label, which is counted on top of those in front of it
  induction labels using List.reverseRecOn with
  | nil => rfl
  | append_singleton front last ih =>
    rw [tally_concat, Table.get?_insert]
    by_cases same : label = last
    · subst same
      have before : ((tally front).get? label).getD 0 = front.count label := by
        rw [ih]
        split
        next => rfl
        next absent => exact (List.count_eq_zero.2 absent).symm
      rw [before, if_pos rfl, if_pos List.mem_concat_self, List.count_append,
        List.count_singleton_self]
    · have elsewhere : label ∉ [last] := fun mem => same (List.mem_singleton.1 mem)
      rw [if_neg same, ih, List.count_append, List.count_eq_zero.2 elsewhere]
      simp only [List.mem_append, elsewhere, or_false, Nat.add_zero]

theorem get?_tally_eq_some_iff {labels : List String} {label : String} {n : Nat} :
    (tally labels).get? label = some n ↔ label ∈ labels ∧ n = labels.count label := by
  rw [get?_tally, Option.ite_none_right_eq_some, Option.some.injEq, eq_comm (a := n)]

/-- A tally of what carries labels agrees with the filters that name one label. -/
theorem get?_tally_map_eq_some_iff {α : Type} (list : List α) (label : α → String)
    (properties : α → PropertyMap) {wanted : String} {n : Nat} :
    (tally (list.map label)).get? wanted = some n ↔ (∃ a ∈ list, label a = wanted) ∧
      n = (list.filter fun a =>
        (Filter.all.withLabel wanted).accepts (label a) (properties a)).length := by
  rw [get?_tally_eq_some_iff, List.mem_map, Filter.length_filter_withLabel]

/-- It is the same tally in whatever order the labels come. -/
theorem tally_eq_of_perm {labels labels' : List String} (same : labels.Perm labels') :
    tally labels = tally labels' := by
  refine Table.ext_get? fun label => ?_
  rw [get?_tally, get?_tally, same.count_eq]
  simp only [same.mem_iff]

/-- The entries of a tally add up to the number of labels. -/
theorem sum_values_tally (labels : List String) : (tally labels).values.sum = labels.length := by
  have occurs : ∀ label ∈ labels, label ∈ (tally labels).keys := fun label mem =>
    Table.mem_keys_iff.2 ⟨_, get?_tally_eq_some_iff.2 ⟨mem, rfl⟩⟩
  calc (tally labels).values.sum
    _ = ((tally labels).keys.map fun label => labels.count label).sum := by
      rw [Table.map_keys_eq_map_values fun found => (get?_tally_eq_some_iff.1 found).2.symm,
        List.map_id']
    _ = labels.length := sum_count (tally labels).nodup_keys occurs

variable {s : Store}

/-! ## Degrees -/

namespace Consistent

/-- **Handshaking.** At one end, what the nodes note comes to one note for each edge. -/
theorem sum_size_noted (h : s.Consistent) (role : Endpoint) :
    (s.nodes.values.map fun n => (n.noted role).size).sum = s.edgeCount := by
  have ends : ∀ u ∈ s.edges.values.map (·.nodeAt role), u ∈ s.nodes.keys := by
    intro u hu
    obtain ⟨e, he, rfl⟩ := List.mem_map.1 hu
    obtain ⟨x, hx⟩ := Table.mem_values_iff.1 he
    exact Table.mem_keys_iff.2 (hasNode_iff.1 (h.hasNode_nodeAt role hx))
  calc (s.nodes.values.map fun n => (n.noted role).size).sum
    _ = (s.nodes.keys.map fun u => (edgesAt s role u).length).sum := by
      rw [Table.map_keys_eq_map_values fun hn => (h.size_noted role hn).symm]
    _ = (s.nodes.keys.map fun u => (s.edges.values.map (·.nodeAt role)).count u).sum := by
      simp only [edgesAt, length_filter_eq_count]
    _ = (s.edges.values.map (·.nodeAt role)).length := sum_count s.nodes.nodup_keys ends
    _ = s.edgeCount := by rw [List.length_map, Table.length_values, edgeCount]

/-- **Each edge is counted at both of its ends**, a loop twice at the same node. -/
theorem sum_degree (h : s.Consistent) :
    (s.nodes.values.map (·.degree)).sum = 2 * s.edgeCount := by
  calc (s.nodes.values.map (·.degree)).sum
    _ = (s.nodes.values.map fun n => (n.noted .target).size).sum +
        (s.nodes.values.map fun n => (n.noted .source).size).sum := List.sum_map_add
    _ = 2 * s.edgeCount := by rw [h.sum_size_noted, h.sum_size_noted, Nat.two_mul]

/-- Where there is no node there are no notes, and so no edges. -/
theorem isEmpty_iff (h : s.Consistent) : s.isEmpty ↔ s.nodeCount = 0 ∧ s.edgeCount = 0 := by
  refine Table.isEmpty_iff_size.trans ⟨fun none => ⟨none, ?_⟩, And.left⟩
  rw [← h.sum_size_noted .source, Table.eq_empty_of_size_eq_zero none]
  rfl

end Consistent

/-! ## All counts -/

/-- **All ways of counting a graph give the same.** -/
structure CountsAgree (s : Store) : Prop where
  /-- Each edge enters one node. -/
  inDegrees : (s.nodes.values.map (·.inEdges.size)).sum = s.edgeCount
  /-- Each edge leaves one node. -/
  outDegrees : (s.nodes.values.map (·.outEdges.size)).sum = s.edgeCount
  /-- Each edge has two ends. -/
  degrees : (s.nodes.values.map (·.degree)).sum = 2 * s.edgeCount
  /-- The summary has an entry for the labels that nodes carry and for no others: the number of
  nodes that are selected by this label. -/
  labelCounts : ∀ label count, s.statistics.labelCounts.get? label = some count ↔
    (∃ n ∈ s.nodes.values, n.label = label) ∧
      count = (s.nodesBy (Filter.all.withLabel label)).length
  /-- The summary has an entry for the labels that edges carry and for no others: the number of
  edges that are selected by this label. -/
  edgeLabelCounts : ∀ label count, s.statistics.edgeLabelCounts.get? label = some count ↔
    (∃ e ∈ s.edges.values, e.label = label) ∧
      count = (s.edgesBy (Filter.all.withLabel label)).length
  /-- Each node has one label. -/
  sum_labelCounts : s.statistics.labelCounts.values.sum = s.nodeCount
  /-- Each edge has one label. -/
  sum_edgeLabelCounts : s.statistics.edgeLabelCounts.values.sum = s.edgeCount
  /-- The summary does not depend on the order in which nodes and edges are gone through. -/
  anyOrder : ∀ (nodes : List Node) (edges : List Edge), nodes.Perm s.nodes.values →
    edges.Perm s.edges.values → tally (nodes.map (·.label)) = s.statistics.labelCounts ∧
      tally (edges.map (·.label)) = s.statistics.edgeLabelCounts
  /-- A graph without nodes is one without anything. -/
  isEmpty : s.isEmpty ↔ s.nodeCount = 0 ∧ s.edgeCount = 0

theorem Consistent.countsAgree (h : s.Consistent) : s.CountsAgree where
  inDegrees := h.sum_size_noted .target
  outDegrees := h.sum_size_noted .source
  degrees := h.sum_degree
  labelCounts _ _ := get?_tally_map_eq_some_iff s.nodes.values (·.label) (·.properties)
  edgeLabelCounts _ _ := get?_tally_map_eq_some_iff s.edges.values (·.label) (·.properties)
  sum_labelCounts := by
    rw [statistics, sum_values_tally, List.length_map, Table.length_values, nodeCount]
  sum_edgeLabelCounts := by
    rw [statistics, sum_values_tally, List.length_map, Table.length_values, edgeCount]
  anyOrder _ _ nodes edges := ⟨tally_eq_of_perm (nodes.map _), tally_eq_of_perm (edges.map _)⟩
  isEmpty := h.isEmpty_iff

/-- **However a graph is counted, the numbers agree.** In every graph that calls can make the
degrees add up to twice the number of edges, half of it at either end; the summary, in whatever
order it is made, has an entry for each label that is carried, with the number of what a filter for
it selects, and its entries add up to the number of nodes and of edges; and without nodes there are
no edges. Giving nodes other labels, as often as one likes, does not change that. -/
theorem counts_agree (hs : s.Reachable) :
    s.CountsAgree ∧ ∀ replacements : List Node,
      (s.after (replacements.map .updateNode)).CountsAgree :=
  ⟨hs.consistent.countsAgree, fun _ => (hs.consistent.after _).countsAgree⟩

/-- A graph with a loop and two parallel edges, of which two nodes are given other labels by
replacements that carry adjacency of their own. -/
theorem counts_agree_of_loop :
    let s := empty.after [.addNode "a" "L" .empty, .addNode "b" "L" .empty, .addNode "c" "M" .empty,
      .addEdge ⟨"x", "a", "K", "b", .empty⟩, .addEdge ⟨"y", "a", "K", "b", .empty⟩,
      .addEdge ⟨"z", "b", "J", "b", .empty⟩]
    let t := s.after [.updateNode ⟨"a", "M", .empty, .ofTexts ["x"], .empty⟩,
      .updateNode ⟨"c", "N", .empty, .ofTexts ["z"], .ofTexts ["z"]⟩]
    s.Reachable ∧ t.CountsAgree ∧ t.edgeCount = 3 ∧ t.nodes.values.map (·.degree) = [2, 4, 0] ∧
      t.statistics.labelCounts.toList = [("L", 1), ("M", 1), ("N", 1)] ∧
      t.statistics.edgeLabelCounts.toList = [("J", 1), ("K", 2)] := by
  intro s t
  have reachable : s.Reachable := ⟨_, rfl⟩
  exact ⟨reachable, (counts_agree reachable).2 [_, _], rfl, rfl, rfl, rfl⟩

end Store

end PropertyGraph
