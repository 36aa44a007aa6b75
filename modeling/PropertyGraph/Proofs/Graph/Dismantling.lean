import PropertyGraph.Proofs.Graph.Bookkeeping

/-!
# Taking a graph apart

A node cannot be removed while an edge is at it, and a graph can still be taken apart: the edges
first, in any order, and then the nodes.

What a run of removals leaves can be said without an order (`Store.withoutEdges`), since a removed
edge is forgotten at its ends and no other node had noted it. `after_removeEdges` is the run, and
with it come the refusals on the way, each with the number of edge ends that are left
(`dismantling`).
-/

namespace PropertyGraph

/-! ## Graphs without some of their edges -/

/-- A node that has forgotten some edges. -/
def Node.forget (gone : String → Bool) (n : Node) : Node :=
  { n with
    inEdges := n.inEdges.filter fun x _ => !gone x
    outEdges := n.outEdges.filter fun x _ => !gone x }

/-- What a node has noted after forgetting some edges is the rest of what it had. -/
theorem Node.mem_noted_forget {gone : String → Bool} {n : Node} {role : Endpoint} {x : String} :
    x ∈ ((n.forget gone).noted role).members ↔ x ∈ (n.noted role).members ∧ gone x = false := by
  cases role <;> simp [forget, noted, Table.mem_keys_filter_iff]

namespace Store

/-- A graph without some of its edges, which every node has forgotten. -/
def withoutEdges (s : Store) (gone : String → Bool) : Store where
  nodes := s.nodes.map (Node.forget gone)
  edges := s.edges.filter fun x _ => !gone x

/-- Whether the edge with a uid leaves or enters a node. -/
def touches (s : Store) (u x : String) : Bool :=
  (s.edges.get? x).any fun e => e.startsFrom u || e.endsAt u

/-- **A graph without one of its nodes** and without the edges at it, which every other node has
forgotten. -/
def withoutNode (s : Store) (u : String) : Store where
  nodes := (s.nodes.erase u).map (Node.forget (s.touches u))
  edges := s.edges.filter fun x _ => !s.touches u x

/-- How many edge ends are at a node when some edges are gone. -/
def endsLeft (s : Store) (u : String) (gone : String → Bool) : Nat :=
  (s.edges.values.filter fun e => e.startsFrom u && !gone e.uid).length +
    (s.edges.values.filter fun e => e.endsAt u && !gone e.uid).length

variable {s : Store} {gone : String → Bool} {u x : String}

theorem get?_nodes_withoutEdges (s : Store) (gone : String → Bool) (u : String) :
    (s.withoutEdges gone).nodes.get? u = (s.nodes.get? u).map (Node.forget gone) :=
  Table.get?_map _ _ _

theorem get?_edges_withoutEdges (s : Store) (gone : String → Bool) (x : String) :
    (s.withoutEdges gone).edges.get? x = if gone x then none else s.edges.get? x := by
  show (s.edges.filter _).get? x = _
  rw [Table.get?_filter]
  cases s.edges.get? x <;> cases gone x <;> rfl

/-- Taking edges away takes no node away. -/
@[simp] theorem hasNode_withoutEdges (s : Store) (gone : String → Bool) (u : String) :
    (s.withoutEdges gone).hasNode u = s.hasNode u := by
  rw [hasNode, Table.contains, get?_nodes_withoutEdges, Option.isSome_map]
  rfl

/-- An edge touches the nodes at its two ends and no other. -/
theorem touches_iff : s.touches u x ↔ ∃ e role, s.edges.get? x = some e ∧ e.nodeAt role = u := by
  unfold touches
  cases s.edges.get? x with
  | none => simp
  | some e =>
    rw [Option.any_some, Bool.or_eq_true]
    constructor
    · rintro (at_source | at_target)
      · exact ⟨e, .source, rfl, of_decide_eq_true at_source⟩
      · exact ⟨e, .target, rfl, of_decide_eq_true at_target⟩
    · rintro ⟨_, role, ⟨⟩, at_u⟩
      cases role with
      | source => exact .inl (decide_eq_true at_u)
      | target => exact .inr (decide_eq_true at_u)

/-- What remains of a consistent graph is consistent. -/
theorem Consistent.withoutEdges (h : s.Consistent) (gone : String → Bool) :
    (s.withoutEdges gone).Consistent := by
  have edges : ∀ x e, (s.withoutEdges gone).edges.get? x = some e ↔
      gone x = false ∧ s.edges.get? x = some e := fun x e => by
    rw [get?_edges_withoutEdges]
    cases gone x <;> simp
  have nodes : ∀ {u n}, (s.withoutEdges gone).nodes.get? u = some n →
      ∃ m, s.nodes.get? u = some m ∧ m.forget gone = n := fun hn => by
    rwa [get?_nodes_withoutEdges, Option.map_eq_some_iff] at hn
  constructor
  case uid_node =>
    intro u n hn
    obtain ⟨m, hm, rfl⟩ := nodes hn
    show m.uid = u
    exact h.uid_node hm
  case uid_edge => exact fun he => h.uid_edge ((edges _ _).1 he).2
  case hasNode_nodeAt =>
    intro x e role he
    obtain ⟨n, hn⟩ := hasNode_iff.1 (h.hasNode_nodeAt role ((edges x e).1 he).2)
    exact hasNode_iff.2 ⟨n.forget gone, by rw [get?_nodes_withoutEdges, hn]; rfl⟩
  case mem_noted =>
    intro u n role x hn
    obtain ⟨m, hm, rfl⟩ := nodes hn
    rw [Node.mem_noted_forget, h.mem_noted role hm, and_comm]
    simp only [edges, and_assoc, exists_and_left]

/-- In the ledger, too, nothing but those edges is missing. -/
theorem ledger_withoutEdges (s : Store) (gone : String → Bool) :
    (s.withoutEdges gone).ledger =
      { s.ledger with edges := s.ledger.edges.filter fun x _ => !gone x } := by
  refine Ledger.ext_get? (fun u => ?_) (fun x => ?_)
  · rw [get?_ledger_nodes, get?_nodes_withoutEdges, Option.map_map]
    exact (get?_ledger_nodes s u).symm
  · show _ = (s.ledger.edges.filter _).get? x
    rw [get?_ledger_edges, get?_edges_withoutEdges, Table.get?_filter, get?_ledger_edges]
    cases s.edges.get? x <;> cases gone x <;> rfl

theorem withoutEdges_none (s : Store) : (s.withoutEdges fun _ => false) = s := by
  have nodes : ∀ n : Node, n.forget (fun _ => false) = n := fun n => by
    simp only [Node.forget, Bool.not_false, Table.filter_true]
  refine ext_get? (fun u => ?_) (fun x => ?_)
  · rw [get?_nodes_withoutEdges, show Node.forget (fun _ => false) = id from funext nodes,
      Option.map_id_apply]
  · rw [get?_edges_withoutEdges, if_neg Bool.false_ne_true]

/-- Edges are gone whether they go one after the other or together. -/
theorem withoutEdges_withoutEdges (s : Store) (p q : String → Bool) :
    (s.withoutEdges p).withoutEdges q = s.withoutEdges fun x => p x || q x := by
  have nodes : ∀ n : Node, (n.forget p).forget q = n.forget fun x => p x || q x := fun n => by
    simp only [Node.forget, Table.filter_filter, Bool.not_or]
  refine ext_get? (fun u => ?_) (fun x => ?_)
  · simp only [get?_nodes_withoutEdges, Option.map_map]
    congr 1
    exact funext nodes
  · simp only [get?_edges_withoutEdges]
    cases p x <;> cases q x <;> rfl

/-! ## Removing edges -/

/-- **One removal.** The edge is gone, and forgotten at every node: no other node than its ends had
noted it. -/
theorem Consistent.removeEdge_eq (h : s.Consistent) (x : String) :
    s.removeEdge x = (s.hasEdge x, s.withoutEdges fun y => y = x) := by
  have answer : (s.removeEdge x).1 = s.hasEdge x := by
    unfold Store.removeEdge hasEdge Table.contains
    cases s.edges.get? x <;> rfl
  have left : (s.removeEdge x).2 = s.withoutEdges fun y => y = x := by
    refine (h.removeEdge x).eq_of_ledger_eq (h.withoutEdges _) ?_
    rw [ledger_withoutEdges, Table.filter_ne_eq_erase]
    exact congrArg Prod.snd (h.call_ledger (.removeEdge x)).symm
  exact Prod.ext answer left

/-- **A run of removals** leaves the graph without the edges named, in whatever order and however
often they are named. -/
theorem Consistent.after_removeEdges (h : s.Consistent) (xs : List String) :
    s.after (xs.map .removeEdge) = s.withoutEdges fun x => x ∈ xs := by
  induction xs generalizing s with
  | nil =>
    simp only [List.not_mem_nil, decide_false, withoutEdges_none]
    rfl
  | cons x rest ih =>
    have step : (s.call (.removeEdge x)).2 = s.withoutEdges fun y => y = x :=
      congrArg Prod.snd (h.removeEdge_eq x)
    rw [List.map_cons, after_cons, step, ih (h.withoutEdges _), withoutEdges_withoutEdges]
    simp only [List.mem_cons, Bool.decide_or]

/-- A removal finds an edge that is there and has not been removed before. -/
theorem Consistent.found_after_removeEdges (h : s.Consistent) (front : List String) (x : String) :
    ((s.after (front.map .removeEdge)).call (.removeEdge x)).1 =
      .ok (.found (s.hasEdge x && x ∉ front)) := by
  rw [h.after_removeEdges]
  show Except.ok (Answer.found ((s.withoutEdges _).removeEdge x).1) = _
  rw [(h.withoutEdges _).removeEdge_eq, hasEdge, Table.contains, get?_edges_withoutEdges, hasEdge,
    Table.contains]
  by_cases gone : x ∈ front <;> simp [gone]

/-- When every edge has been removed, none is there. -/
theorem Consistent.edges_after_removeEdges (h : s.Consistent) {xs : List String}
    (all : ∀ x ∈ s.edges.keys, x ∈ xs) : (s.after (xs.map .removeEdge)).edges = .empty := by
  rw [h.after_removeEdges]
  show (s.edges.filter fun x _ => !decide (x ∈ xs)) = .empty
  rw [Table.filter_eq_empty_iff]
  intro x hx
  rw [decide_eq_true (all x hx), Bool.not_true]

/-! ## Removing a node -/

/-- The edges that are left are those whose uids are not given, in the same order. -/
theorem Consistent.values_withoutEdges (h : s.Consistent) (gone : String → Bool) :
    (s.withoutEdges gone).edges.values = s.edges.values.filter fun e => !gone e.uid := by
  show (s.edges.toList.filter fun e => !gone e.1).map (·.2) =
    (s.edges.toList.map (·.2)).filter fun e => !gone e.uid
  rw [List.filter_map]
  refine congrArg _ (List.filter_congr fun e he => ?_)
  rw [Function.comp_apply, h.uid_edge (Table.mem_toList_iff.1 he)]

/-- The edge ends that a search of what remains would find. -/
theorem Consistent.ends_withoutEdges (h : s.Consistent) (u : String) (gone : String → Bool) :
    (s.withoutEdges gone).ledger.ends u = s.endsLeft u gone := by
  rw [Ledger.ends, (h.withoutEdges gone).leaving_ledger, (h.withoutEdges gone).entering_ledger,
    Consistent.edgesAt, Consistent.edgesAt, h.values_withoutEdges, List.filter_filter,
    List.filter_filter]
  rfl

/-- No edge end is left exactly if every edge at the node is gone. -/
theorem Consistent.endsLeft_eq_zero_iff (h : s.Consistent) {u : String} {gone : String → Bool} :
    s.endsLeft u gone = 0 ↔ ∀ x, s.touches u x → gone x := by
  have left : s.endsLeft u gone = 0 ↔
      ∀ e ∈ s.edges.values, (e.startsFrom u ∨ e.endsAt u) → gone e.uid := by
    unfold endsLeft
    rw [Nat.add_eq_zero_iff, List.length_eq_zero_iff, List.length_eq_zero_iff,
      List.filter_eq_nil_iff, List.filter_eq_nil_iff]
    simp only [Bool.and_eq_true, Bool.not_eq_true', not_and, Bool.not_eq_false, or_imp,
      ← forall_and]
  rw [left]
  constructor
  · intro all x touched
    obtain ⟨e, role, he, at_u⟩ := touches_iff.1 touched
    rw [← h.uid_edge he]
    refine all e (Table.mem_values_iff.2 ⟨x, he⟩) ?_
    cases role with
    | source => exact .inl (decide_eq_true at_u)
    | target => exact .inr (decide_eq_true at_u)
  · intro all e he at_u
    obtain ⟨x, hx⟩ := Table.mem_values_iff.1 he
    obtain rfl := h.uid_edge hx
    refine all e.uid (touches_iff.2 ?_)
    rcases at_u with at_source | at_target
    · exact ⟨e, .source, hx, of_decide_eq_true at_source⟩
    · exact ⟨e, .target, hx, of_decide_eq_true at_target⟩

/-- A node is removed if no edge is at it, and otherwise the refusal counts the edge ends. -/
theorem Consistent.call_removeNode (h : s.Consistent) (there : s.hasNode u) :
    s.call (.removeNode u) =
      if s.ledger.ends u = 0 then (.ok .done, { s with nodes := s.nodes.erase u })
      else (.error (.nodeHasEdges u (s.ledger.ends u)), s) := by
  obtain ⟨n, hn⟩ := hasNode_iff.1 there
  rw [← h.degree_eq_ends hn, Store.call, Store.removeNode, hn]
  by_cases bare : n.degree = 0
  · simp only [bare, ne_eq, not_true_eq_false, if_false, if_true]
    rfl
  · simp only [bare, ne_eq, not_false_eq_true, if_false, if_true]
    rfl

/-- When the edges that touch a node are gone and the node as well, the graph is the one without the
node. -/
theorem withoutNode_eq {xs : List String} (touched : ∀ x, x ∈ xs ↔ s.touches u x) :
    { s.withoutEdges fun x => x ∈ xs with
      nodes := (s.withoutEdges fun x => x ∈ xs).nodes.erase u } = s.withoutNode u := by
  have gone : (fun x => decide (x ∈ xs)) = s.touches u := funext fun x => by
    simp only [touched, Bool.decide_eq_true]
  rw [gone]
  exact congrArg (Store.mk · _) (Table.map_erase s.nodes u (Node.forget (s.touches u))).symm

/-- What a node notes are the edges that touch it. -/
theorem Consistent.touches_iff_noted (h : s.Consistent) {n : Node} (hn : s.nodes.get? u = some n) :
    s.touches u x ↔ x ∈ n.inEdges.members ∨ x ∈ n.outEdges.members := by
  have noted : s.touches u x ↔ ∃ role, x ∈ (n.noted role).members := by
    rw [touches_iff, exists_comm]
    simp only [h.mem_noted _ hn]
  rw [noted]
  constructor
  · rintro ⟨role, mem⟩
    cases role with
    | source => exact .inr mem
    | target => exact .inl mem
  · rintro (into | out)
    · exact ⟨.target, into⟩
    · exact ⟨.source, out⟩

/-- While edges are removed, a node can be removed from the moment on when none is left at it. -/
theorem Consistent.call_removeNode_after (h : s.Consistent) (there : s.hasNode u)
    (front : List String) : (s.after (front.map .removeEdge)).call (.removeNode u) =
      if s.endsLeft u (fun x => x ∈ front) = 0 then
        (.ok .done, { s.withoutEdges fun x => x ∈ front with
          nodes := (s.withoutEdges fun x => x ∈ front).nodes.erase u })
      else (.error (.nodeHasEdges u (s.endsLeft u fun x => x ∈ front)),
        s.after (front.map .removeEdge)) := by
  rw [h.after_removeEdges,
    (h.withoutEdges _).call_removeNode ((hasNode_withoutEdges s _ u).trans there),
    h.ends_withoutEdges]

/-- As long as an edge at a node is left, the node stays, and the refusal counts the edge ends. -/
theorem Consistent.call_removeNode_of_left (h : s.Consistent) (there : s.hasNode u)
    {front : List String} (touched : s.touches u x) (left : x ∉ front) :
    s.endsLeft u (fun x => x ∈ front) ≠ 0 ∧
      (s.after (front.map .removeEdge)).call (.removeNode u) =
        (.error (.nodeHasEdges u (s.endsLeft u fun x => x ∈ front)),
          s.after (front.map .removeEdge)) := by
  have some_left : s.endsLeft u (fun x => x ∈ front) ≠ 0 := fun none =>
    left (of_decide_eq_true (h.endsLeft_eq_zero_iff.1 none x touched))
  refine ⟨some_left, ?_⟩
  rw [h.call_removeNode_after there, if_neg some_left]

/-- When all edges at a node have been removed, the node goes. -/
theorem Consistent.call_removeNode_of_none_left (h : s.Consistent) (there : s.hasNode u)
    {xs : List String} (touched : ∀ x, x ∈ xs ↔ s.touches u x) :
    (s.after (xs.map .removeEdge)).call (.removeNode u) = (.ok .done, s.withoutNode u) := by
  have none_left : s.endsLeft u (fun x => x ∈ xs) = 0 :=
    h.endsLeft_eq_zero_iff.2 fun x at_u => decide_eq_true ((touched x).2 at_u)
  rw [h.call_removeNode_after there, if_pos none_left, withoutNode_eq touched]

/-! ## Removing all nodes -/

/-- With no edge in the graph every node can be removed. -/
theorem Consistent.call_removeNode_of_bare (h : s.Consistent) (bare : s.edges = .empty)
    (there : s.hasNode u) : s.call (.removeNode u) = (.ok .done, ⟨s.nodes.erase u, .empty⟩) := by
  obtain ⟨nodes, edges⟩ := s
  obtain rfl : edges = .empty := bare
  rw [h.call_removeNode there]
  exact if_pos rfl

/-- **A run of removals of nodes** where there are no edges leaves the other nodes. -/
theorem Consistent.after_removeNodes (h : s.Consistent) (bare : s.edges = .empty)
    {us : List String} (there : ∀ u ∈ us, s.hasNode u) (nodup : us.Nodup) :
    s.after (us.map .removeNode) = ⟨s.nodes.filter fun u _ => !decide (u ∈ us), .empty⟩ := by
  induction us generalizing s with
  | nil =>
    simp only [List.not_mem_nil, decide_false, Bool.not_false, Table.filter_true]
    exact ext_get? (fun _ => rfl) fun _ => by rw [← bare]; rfl
  | cons u rest ih =>
    obtain ⟨first, others⟩ := List.forall_mem_cons.1 there
    obtain ⟨notin, nodup⟩ := List.nodup_cons.1 nodup
    have step := h.call_removeNode_of_bare bare first
    have next := h.call (.removeNode u)
    rw [step] at next
    have stay : ∀ v ∈ rest, Store.hasNode ⟨s.nodes.erase u, .empty⟩ v := fun v hv => by
      have ne : v ≠ u := fun eq => notin (eq ▸ hv)
      rw [hasNode, Table.contains, Table.get?_erase, if_neg ne]
      exact others v hv
    rw [List.map_cons, after_cons, step, ih next rfl stay nodup, ← Table.filter_ne_eq_erase,
      Table.filter_filter]
    simp only [List.mem_cons, Bool.decide_or, Bool.not_or]

/-- A node can be removed when all edges are gone and nodes in front of it as well. -/
theorem Consistent.call_removeNode_after_nodes (h : s.Consistent) (bare : s.edges = .empty)
    {us : List String} (there : ∀ u ∈ us, s.hasNode u) (nodup : us.Nodup) (present : s.hasNode u)
    (notin : u ∉ us) : ((s.after (us.map .removeNode)).call (.removeNode u)).1 = .ok .done := by
  have consistent : (s.after (us.map .removeNode)).Consistent := h.after _
  rw [h.after_removeNodes bare there nodup] at consistent ⊢
  refine congrArg Prod.fst (consistent.call_removeNode_of_bare rfl ?_)
  rw [hasNode, Table.contains, Table.get?_filter]
  obtain ⟨n, hn⟩ := hasNode_iff.1 present
  simp [hn, notin]

/-! ## The whole graph -/

/-- In a list without repeats nothing comes a second time. -/
theorem not_mem_of_nodup {front rest : List String} (nodup : (front ++ x :: rest).Nodup) :
    x ∉ front := fun mem =>
  (List.nodup_append.1 nodup).2.2 x mem x List.mem_cons_self rfl

/-- **Taking a graph apart.** Let a graph be made by any calls. If the edges that a node notes are
removed, in any order and each once or more often, then every removal finds its edge unless it was
removed before; as long as an edge is left the node cannot be removed, and the refusal counts the
edge ends that are left at it; and in the end the node is removed, and what remains is the graph
without it and without the edges at it. So if all edges are removed in any order and then all nodes
in any order, every call goes through and nothing remains. -/
theorem dismantling (hs : s.Reachable) :
    (∀ u n, s.nodes.get? u = some n → ∀ xs,
      (∀ x, x ∈ xs ↔ x ∈ n.inEdges.members ∨ x ∈ n.outEdges.members) →
      (∀ front x rest, xs = front ++ x :: rest →
        ((s.after (front.map .removeEdge)).call (.removeEdge x)).1 = .ok (.found (x ∉ front))) ∧
      (∀ front rest, xs = front ++ rest → (∃ x ∈ rest, x ∉ front) →
        s.endsLeft u (fun x => x ∈ front) ≠ 0 ∧
        (s.after (front.map .removeEdge)).call (.removeNode u) =
          (.error (.nodeHasEdges u (s.endsLeft u fun x => x ∈ front)),
            s.after (front.map .removeEdge))) ∧
      (s.after (xs.map .removeEdge)).call (.removeNode u) = (.ok .done, s.withoutNode u)) ∧
    ∀ xs us, xs.Perm s.edges.keys → us.Perm s.nodes.keys →
      (∀ front x rest, xs = front ++ x :: rest →
        ((s.after (front.map .removeEdge)).call (.removeEdge x)).1 = .ok (.found true)) ∧
      (∀ front u rest, us = front ++ u :: rest →
        ((s.after (xs.map .removeEdge ++ front.map .removeNode)).call (.removeNode u)).1 =
          .ok .done) ∧
      s.after (xs.map .removeEdge ++ us.map .removeNode) = empty := by
  have h := hs.consistent
  refine ⟨fun u n hn xs listed => ?_, fun xs us edges nodes => ?_⟩
  · have there : s.hasNode u := hasNode_iff.2 ⟨n, hn⟩
    have touched : ∀ x, x ∈ xs ↔ s.touches u x := fun x =>
      (listed x).trans (h.touches_iff_noted hn).symm
    refine ⟨fun front x rest cut => ?_, fun front rest cut ⟨x, hx, left⟩ => ?_,
      h.call_removeNode_of_none_left there touched⟩
    · obtain ⟨e, -, he, -⟩ := touches_iff.1 ((touched x).1 (cut ▸ by simp))
      rw [h.found_after_removeEdges, show s.hasEdge x from Table.contains_iff.2 ⟨e, he⟩,
        Bool.true_and]
    · have mem : x ∈ xs := cut ▸ List.mem_append_right front hx
      exact h.call_removeNode_of_left there ((touched x).1 mem) left
  · have bare := h.edges_after_removeEdges fun x hx => edges.mem_iff.2 hx
    have consistent := h.after (xs.map .removeEdge)
    have keys : (s.after (xs.map .removeEdge)).nodes.keys = s.nodes.keys := by
      rw [h.after_removeEdges]
      exact Table.keys_map _ _
    have there : ∀ v ∈ us, (s.after (xs.map .removeEdge)).hasNode v := fun v hv =>
      Table.contains_iff.2 (Table.mem_keys_iff.1 (keys ▸ nodes.mem_iff.1 hv))
    have nodup_edges : xs.Nodup := edges.nodup_iff.2 s.edges.nodup_keys
    have nodup_nodes : us.Nodup := nodes.nodup_iff.2 s.nodes.nodup_keys
    refine ⟨fun front x rest cut => ?_, fun front u rest cut => ?_, ?_⟩
    · have present : s.hasEdge x :=
        Table.contains_iff.2 (Table.mem_keys_iff.1 (edges.mem_iff.1 (cut ▸ by simp)))
      have notin : x ∉ front := not_mem_of_nodup (cut ▸ nodup_edges)
      rw [h.found_after_removeEdges, present, Bool.true_and, decide_eq_true notin]
    · subst cut
      rw [after_append]
      exact consistent.call_removeNode_after_nodes bare
        (fun v hv => there v (List.mem_append_left _ hv)) (List.nodup_append.1 nodup_nodes).1
        (there u (by simp)) (not_mem_of_nodup nodup_nodes)
    · rw [after_append, consistent.after_removeNodes bare there nodup_nodes]
      refine congrArg (Store.mk · _) ?_
      rw [Table.filter_eq_empty_iff]
      intro u hu
      rw [decide_eq_true (nodes.mem_iff.2 (keys ▸ hu)), Bool.not_true]

/-- A node with a loop, which both of its lists name, two parallel edges out and an edge into it,
beside an edge elsewhere: when only the loop is left, the refusal counts its two ends. -/
theorem dismantling_of_loop :
    let s := empty.after [.addNode "a" "L" .empty, .addNode "b" "L" .empty, .addNode "c" "M" .empty,
      .addEdge ⟨"l", "a", "K", "a", .empty⟩, .addEdge ⟨"x", "a", "K", "b", .empty⟩,
      .addEdge ⟨"y", "a", "K", "b", .empty⟩, .addEdge ⟨"z", "b", "K", "a", .empty⟩,
      .addEdge ⟨"w", "b", "K", "c", .empty⟩]
    s.Reachable ∧
      (s.after (["y", "z", "x"].map .removeEdge)).call (.removeNode "a") =
        (.error (.nodeHasEdges "a" 2), s.after (["y", "z", "x"].map .removeEdge)) ∧
      (s.after (["y", "z", "x", "l", "l"].map .removeEdge)).call (.removeNode "a") =
        (.ok .done, s.withoutNode "a") ∧
      s.after (["w", "l", "z", "y", "x"].map .removeEdge ++ ["b", "c", "a"].map .removeNode) =
        empty := by
  intro s
  have reachable : s.Reachable := ⟨_, rfl⟩
  let a : Node := ⟨"a", "L", .empty, .ofTexts ["l", "z"], .ofTexts ["l", "x", "y"]⟩
  have found : s.nodes.get? "a" = some a := by
    unfold s a
    rfl
  have two : s.endsLeft "a" (fun x => x ∈ ["y", "z", "x"]) = 2 := by
    unfold s
    rfl
  have edges : ["w", "l", "z", "y", "x"].Perm s.edges.keys := by
    rw [show s.edges.keys = ["l", "w", "x", "y", "z"] by unfold s; rfl]
    decide
  have nodes : ["b", "c", "a"].Perm s.nodes.keys := by
    rw [show s.nodes.keys = ["a", "b", "c"] by unfold s; rfl]
    decide
  have listed : ∀ x, x ∈ ["y", "z", "x", "l", "l"] ↔
      x ∈ a.inEdges.members ∨ x ∈ a.outEdges.members := by
    rw [show a.inEdges.members = ["l", "z"] from rfl,
      show a.outEdges.members = ["l", "x", "y"] from rfl]
    grind
  clear_value s
  obtain ⟨one, all⟩ := dismantling reachable
  obtain ⟨-, refused, removed⟩ := one "a" a found _ listed
  have loop_left := (refused ["y", "z", "x"] ["l", "l"] rfl ⟨"l", by decide, by decide⟩).2
  rw [two] at loop_left
  exact ⟨reachable, loop_left, removed, (all _ _ edges nodes).2.2⟩

end Store

end PropertyGraph
