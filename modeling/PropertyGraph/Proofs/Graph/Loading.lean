import PropertyGraph.Proofs.Graph.Consistency
import PropertyGraph.Proofs.Graph.JsonForm

/-!
# Loading a dump

A load makes its changes one by one, and what a change does depends on those in front of it. Still
it can be told in advance whether a load will succeed (`Store.Accepts`), and what it makes of a
graph can be said without an order (`Store.Joins`): the nodes and edges of the graph and those of
the dump, where each node notes the edges of the dump that are at it. The graph that this describes
is unique (`Joins.unique`), so neither the order of a dump nor what it lists of adjacency makes a
difference (`load_succeeds_iff_accepts`), and the dump of a graph leads back to it
(`ofDump_dump`).
-/

namespace PropertyGraph

/-! ## What a dump says -/

/-- A listed node less what is listed of its edges. -/
def ListedNode.isolated (m : ListedNode) : Node := .isolated m.uid m.label m.properties

/-- **Two dumps say the same** if they list the same nodes and the same edges, in whatever order
and with whatever adjacency lists. -/
structure Dump.SaysSame (d d' : Dump) : Prop where
  /-- The nodes are the same, apart from what is listed of their edges. -/
  nodes : (d.nodes.map ListedNode.isolated).Perm (d'.nodes.map ListedNode.isolated)
  /-- The edges are the same. -/
  edges : d.edges.Perm d'.edges

namespace Dump.SaysSame

variable {d d' : Dump}

theorem symm (h : d.SaysSame d') : d'.SaysSame d := ⟨h.nodes.symm, h.edges.symm⟩

/-- Dumps that say the same list the same uids. -/
theorem uids (h : d.SaysSame d') : (d.nodes.map (·.uid)).Perm (d'.nodes.map (·.uid)) := by
  have perm := h.nodes.map (·.uid)
  rwa [List.map_map, List.map_map] at perm

/-- A node of the one is listed in the other, apart from its edges. -/
theorem exists_node (h : d.SaysSame d') {m : ListedNode} (hm : m ∈ d.nodes) :
    ∃ m' ∈ d'.nodes, m'.isolated = m.isolated :=
  List.mem_map.1 (h.nodes.mem_iff.1 (List.mem_map.2 ⟨m, hm, rfl⟩))

/-- They count alike. -/
theorem lengths (h : d.SaysSame d') :
    (⟨d.nodes.length, d.edges.length⟩ : Loaded) = ⟨d'.nodes.length, d'.edges.length⟩ := by
  have nodes := h.nodes.length_eq
  rw [List.length_map, List.length_map] at nodes
  rw [nodes, h.edges.length_eq]

end Dump.SaysSame

/-- Leaving out adjacency lists changes nothing of what a dump says. -/
theorem Dump.saysSame_keeping (kept : Nat → Endpoint → Bool) (l : Layout) :
    l.dump.SaysSame (l.keeping kept).dump where
  nodes := by
    refine .of_eq (List.ext_getElem (by simp [Layout.dump, Layout.keeping]) fun i _ _ => ?_)
    simp [Layout.dump, Layout.keeping, NodeLayout.keeping, NodeLayout.listed, ListedNode.isolated]
  edges := .refl _

/-- A record of a node is complete without adjacency lists, and with any that are given it is the
same node. -/
theorem NodeFields.complete_record (name uid label : String) (properties : PropertyLayout)
    (into out : Option (List String)) :
    ∃ n, (record name).complete ⟨some uid, some label, some properties, into, out⟩ = .ok n ∧
      n.listed.isolated = .isolated uid label (.ofList properties) :=
  ⟨⟨uid, label, properties, into.getD [], out.getD []⟩, rfl, rfl⟩

/-! ## What a node gains -/

/-- **A node gains edges**: it comes to note those that are at it, and is otherwise as before. -/
structure Node.Gains (n : Node) (edges : List Edge) (n' : Node) : Prop where
  /-- It has the same uid. -/
  uid : n'.uid = n.uid
  /-- It has the same label. -/
  label : n'.label = n.label
  /-- It has the same properties. -/
  properties : n'.properties = n.properties
  /-- It notes what it noted, and each of the edges at the end at which it is. -/
  mem_noted : ∀ role x, x ∈ (n'.noted role).members ↔
    x ∈ (n.noted role).members ∨ ∃ e ∈ edges, e.uid = x ∧ e.nodeAt role = n.uid

namespace Node.Gains

variable {n n' n'' : Node} {es es' : List Edge}

theorem nil (n : Node) : n.Gains [] n := ⟨rfl, rfl, rfl, by simp⟩

/-- A node that gains edges twice has gained all of them. -/
theorem append (h : n.Gains es n') (h' : n'.Gains es' n'') : n.Gains (es ++ es') n'' where
  uid := h'.uid.trans h.uid
  label := h'.label.trans h.label
  properties := h'.properties.trans h.properties
  mem_noted role x := by
    rw [h'.mem_noted, h.mem_noted, h.uid, or_assoc]
    simp only [List.mem_append, or_and_right, exists_or]

/-- The order of the edges does not count. -/
theorem perm (h : n.Gains es n') (same : es.Perm es') : n.Gains es' n' where
  uid := h.uid
  label := h.label
  properties := h.properties
  mem_noted role x := by
    rw [h.mem_noted]
    simp only [same.mem_iff]

/-- What a node has become is determined by what it was and what it has gained. -/
theorem unique (h : n.Gains es n') (h' : n.Gains es n'') : n' = n'' := by
  have noted : ∀ role, n'.noted role = n''.noted role := fun role =>
    TextSet.ext_members fun x => (h.mem_noted role x).trans (h'.mem_noted role x).symm
  have into := noted .target
  have out := noted .source
  obtain ⟨_, _, _, _, _⟩ := n'
  obtain ⟨_, _, _, _, _⟩ := n''
  obtain rfl := h.uid.trans h'.uid.symm
  obtain rfl := h.label.trans h'.label.symm
  obtain rfl := h.properties.trans h'.properties.symm
  obtain rfl : _ = _ := into
  obtain rfl : _ = _ := out
  rfl

end Node.Gains

/-! ## Free keys -/

namespace Table

variable {α β : Type} {t : Table α}

/-- No key of a list is taken, and none is listed twice. -/
structure Free (t : Table α) (keys : List String) : Prop where
  /-- None is listed twice. -/
  nodup : keys.Nodup
  /-- None is taken. -/
  absent : ∀ k ∈ keys, t.get? k = none

/-- Whether keys are free does not depend on their order. -/
theorem Free.perm {keys keys' : List String} (h : t.Free keys) (same : keys.Perm keys') :
    t.Free keys' :=
  ⟨same.nodup_iff.1 h.nodup, fun k hk => h.absent k (same.mem_iff.2 hk)⟩

/-- What is put under the first key takes that key from the others. -/
theorem free_cons_iff {k : String} {keys : List String} (v : α) :
    t.Free (k :: keys) ↔ t.get? k = none ∧ (t.insert k v).Free keys := by
  constructor
  · rintro ⟨nodup, absent⟩
    obtain ⟨notin, nodup⟩ := List.nodup_cons.1 nodup
    obtain ⟨first, others⟩ := List.forall_mem_cons.1 absent
    refine ⟨first, nodup, fun k' hk' => ?_⟩
    have ne : k' ≠ k := fun eq => notin (eq ▸ hk')
    rw [get?_insert, if_neg ne, others k' hk']
  · rintro ⟨first, nodup, absent⟩
    have ne : ∀ k' ∈ keys, k' ≠ k := by
      rintro k' hk' rfl
      have := absent k' hk'
      rw [get?_insert, if_pos rfl] at this
      nomatch this
    refine ⟨List.nodup_cons.2 ⟨fun mem => ne k mem rfl, nodup⟩, List.forall_mem_cons.2
      ⟨first, fun k' hk' => ?_⟩⟩
    have := absent k' hk'
    rwa [get?_insert, if_neg (ne k' hk')] at this

/-- Things put under free keys stand beside what there was, in whatever order they came. -/
theorem get?_foldl_insert_eq_some_iff {key : β → String} {value : β → α} {items : List β}
    (free : t.Free (items.map key)) {k : String} {v : α} :
    (items.foldl (fun t b => t.insert (key b) (value b)) t).get? k = some v ↔
      t.get? k = some v ∨ ∃ b ∈ items, key b = k ∧ value b = v := by
  induction items generalizing t with
  | nil => simp
  | cons b rest ih =>
    obtain ⟨absent, free⟩ := (free_cons_iff (value b)).1 free
    rw [List.foldl_cons, ih free, get?_insert]
    simp only [List.mem_cons, exists_eq_or_imp, ← or_assoc]
    refine or_congr_left ?_
    by_cases eq : k = key b
    · rw [if_pos eq, eq, absent]
      simp
    · rw [if_neg eq, or_iff_left fun h => eq h.1.symm]

end Table

/-! ## Replays that nothing ends -/

/-- Nothing ends a replay exactly if nothing refuses the first change and nothing ends the others.
-/
theorem replay_cons_eq_none_iff {σ α : Type} {change : σ → α → Except GraphError σ} {s s' : σ}
    {a : α} {rest : List α} : replay change s (a :: rest) = (none, s') ↔
      ∃ t, change s a = .ok t ∧ replay change t rest = (none, s') := by
  rw [replay]
  cases change s a with
  | error e => simp
  | ok t => simp

namespace Store

variable {s s' t : Store} {d d' : Dump}

/-- A graph with listed nodes put into it. -/
def withNodes (s : Store) (ms : List ListedNode) : Store :=
  { s with nodes := ms.foldl (fun t m => t.insert m.uid m.isolated) s.nodes }

/-- A graph with edges written into it, one after the other. -/
def withEdges (s : Store) (es : List Edge) : Store := es.foldl link s

/-! ## Adding the nodes -/

/-- All listed nodes are added exactly if their uids are free. -/
theorem loadNodes_eq_none_iff {ms : List ListedNode} :
    s.loadNodes ms = (none, s') ↔ s.nodes.Free (ms.map (·.uid)) ∧ s' = s.withNodes ms := by
  induction ms generalizing s with
  | nil =>
    constructor
    · rintro ⟨⟩
      exact ⟨⟨.nil, List.forall_mem_nil _⟩, rfl⟩
    · rintro ⟨-, rfl⟩
      rfl
  | cons m rest ih =>
    rw [loadNodes, replay_cons_eq_none_iff, List.map_cons, Table.free_cons_iff m.isolated]
    simp only [map_eq_ok_iff, Prod.exists, addNode_eq_ok_iff]
    constructor
    · rintro ⟨t, ⟨n, t, ⟨absent, rfl, rfl⟩, rfl⟩, others⟩
      obtain ⟨free, rfl⟩ := ih.1 others
      exact ⟨⟨absent, free⟩, rfl⟩
    · rintro ⟨⟨absent, free⟩, rfl⟩
      exact ⟨_, ⟨_, _, ⟨absent, rfl, rfl⟩, rfl⟩, ih.2 ⟨free, rfl⟩⟩

/-- Listed nodes stand beside those that there were. -/
theorem get?_withNodes_eq_some_iff {ms : List ListedNode} (free : s.nodes.Free (ms.map (·.uid)))
    {u : String} {n : Node} : (s.withNodes ms).nodes.get? u = some n ↔
      s.nodes.get? u = some n ∨ ∃ m ∈ ms, m.uid = u ∧ m.isolated = n :=
  Table.get?_foldl_insert_eq_some_iff free

/-! ## Adding the edges -/

/-- All listed edges are added exactly if their uids are free and their ends are there before the
first of them is added. -/
theorem loadEdges_eq_none_iff {es : List Edge} :
    s.loadEdges es = (none, s') ↔ s.edges.Free (es.map (·.uid)) ∧
      (∀ e ∈ es, ∀ role, s.hasNode (e.nodeAt role)) ∧ s' = s.withEdges es := by
  induction es generalizing s with
  | nil =>
    constructor
    · rintro ⟨⟩
      exact ⟨⟨.nil, List.forall_mem_nil _⟩, List.forall_mem_nil _, rfl⟩
    · rintro ⟨-, -, rfl⟩
      rfl
  | cons e rest ih =>
    rw [loadEdges, replay_cons_eq_none_iff, List.map_cons, Table.free_cons_iff e,
      List.forall_mem_cons]
    simp only [map_eq_ok_iff, Prod.exists, addEdge_eq_ok_iff]
    constructor
    · rintro ⟨t, ⟨n, t, ⟨source, target, absent, rfl, rfl⟩, rfl⟩, others⟩
      obtain ⟨free, ends, rfl⟩ := ih.1 others
      simp only [hasNode_link] at ends
      exact ⟨⟨absent, free⟩, ⟨fun role => by cases role <;> assumption, ends⟩, rfl⟩
    · rintro ⟨⟨absent, free⟩, ⟨first, ends⟩, rfl⟩
      simp only [← hasNode_link s e] at ends
      exact ⟨_, ⟨_, _, ⟨first .source, first .target, absent, rfl, rfl⟩, rfl⟩,
        ih.2 ⟨free, ends, rfl⟩⟩

/-- Edges that have been linked stand beside those that there were. -/
theorem get?_edges_withEdges_eq_some_iff {es : List Edge} (free : s.edges.Free (es.map (·.uid)))
    {x : String} {e : Edge} : (s.withEdges es).edges.get? x = some e ↔
      s.edges.get? x = some e ∨ e ∈ es ∧ e.uid = x := by
  have edges : (s.withEdges es).edges = es.foldl (fun t e => t.insert e.uid e) s.edges := by
    unfold withEdges
    clear free
    induction es generalizing s with
    | nil => rfl
    | cons e rest ih => exact ih
  rw [edges, Table.get?_foldl_insert_eq_some_iff free]
  simp

/-- Linking edges makes no node. -/
theorem hasNode_withEdges (s : Store) (es : List Edge) (u : String) :
    (s.withEdges es).hasNode u = s.hasNode u := by
  unfold withEdges
  induction es generalizing s with
  | nil => rfl
  | cons e rest ih => rw [List.foldl_cons, ih, hasNode_link]

/-- A node that is filed under its uid gains an edge that is linked. -/
theorem gains_link {u : String} {n : Node} (hn : s.nodes.get? u = some n) (filed : n.uid = u)
    (e : Edge) : ∃ n', (s.link e).nodes.get? u = some n' ∧ n.Gains [e] n' := by
  have hn' := get?_link s e u
  rw [hn, Option.map_some] at hn'
  obtain ⟨m, hm, -, noted⟩ := exists_of_get?_link hn'
  obtain rfl : n = m := Option.some.inj (hn.symm.trans hm)
  refine ⟨_, hn', rfl, rfl, rfl, fun role x => ?_⟩
  rw [noted, filed]
  by_cases at_u : u = e.nodeAt role
  · rw [if_pos at_u, Table.mem_keys_insert, or_comm]
    simp [at_u, eq_comm]
  · rw [if_neg at_u]
    simp [Ne.symm at_u]

/-- A node gains what is linked, one edge after the other. -/
theorem gains_withEdges {u : String} {n : Node} (hn : s.nodes.get? u = some n)
    (filed : n.uid = u) (es : List Edge) :
    ∃ n', (s.withEdges es).nodes.get? u = some n' ∧ n.Gains es n' := by
  unfold withEdges
  induction es generalizing s n with
  | nil => exact ⟨n, hn, .nil n⟩
  | cons e rest ih =>
    obtain ⟨m, hm, first⟩ := gains_link hn filed e
    obtain ⟨n', hn', others⟩ := ih hm (first.uid.trans filed)
    exact ⟨n', hn', first.append others⟩

/-! ## What a load makes -/

/-- **Whether a graph can take in a dump.** -/
structure Accepts (s : Store) (d : Dump) : Prop where
  /-- The uids of the nodes are distinct, and no node of the graph has one of them. -/
  nodes : s.nodes.Free (d.nodes.map (·.uid))
  /-- The uids of the edges are distinct, and no edge of the graph has one of them. -/
  edges : s.edges.Free (d.edges.map (·.uid))
  /-- Every edge is between nodes of the graph or of the dump. -/
  ends : ∀ e ∈ d.edges, ∀ role,
    s.hasNode (e.nodeAt role) ∨ e.nodeAt role ∈ d.nodes.map (·.uid)

/-- **What a graph and a dump make together**: a graph `s'` with the nodes and edges of both, in
which every node has gained the edges of the dump that are at it. -/
structure Joins (s : Store) (d : Dump) (s' : Store) : Prop where
  /-- The nodes of the graph stay, with the edges gained. -/
  kept : ∀ {u n}, s.nodes.get? u = some n →
    ∃ n', s'.nodes.get? u = some n' ∧ n.Gains d.edges n'
  /-- The nodes of the dump are added, and have the edges gained and no other. -/
  added : ∀ m ∈ d.nodes, ∃ n', s'.nodes.get? m.uid = some n' ∧ m.isolated.Gains d.edges n'
  /-- There are no other nodes. -/
  nodes : ∀ {u}, s'.hasNode u → s.hasNode u ∨ u ∈ d.nodes.map (·.uid)
  /-- The edges are those of the graph, unchanged, and those of the dump. -/
  edges : ∀ {x e}, s'.edges.get? x = some e ↔ s.edges.get? x = some e ∨ e ∈ d.edges ∧ e.uid = x

/-- Whether a dump can be taken in depends on what it says only. -/
theorem Accepts.of_saysSame (h : s.Accepts d) (same : d.SaysSame d') : s.Accepts d' where
  nodes := h.nodes.perm same.uids
  edges := h.edges.perm (same.edges.map _)
  ends e he role := by
    rw [← same.uids.mem_iff]
    exact h.ends e (same.edges.mem_iff.2 he) role

/-- What it makes of a graph does, too. -/
theorem Joins.of_saysSame (h : s.Joins d s') (same : d.SaysSame d') : s.Joins d' s' where
  kept hn := by
    obtain ⟨n', hn', gains⟩ := h.kept hn
    exact ⟨n', hn', gains.perm same.edges⟩
  added m' hm' := by
    obtain ⟨m, hm, eq⟩ := same.symm.exists_node hm'
    obtain ⟨n', hn', gains⟩ := h.added m hm
    rw [show m.uid = m'.uid from congrArg Node.uid eq] at hn'
    rw [eq] at gains
    exact ⟨n', hn', gains.perm same.edges⟩
  nodes hu := by
    rw [← same.uids.mem_iff]
    exact h.nodes hu
  edges {x e} := by
    rw [← same.edges.mem_iff]
    exact h.edges

/-- **Only one graph is made of a graph and a dump.** -/
theorem Joins.unique (h : s.Joins d s') (h' : s.Joins d t) : s' = t := by
  have nodes : s'.nodes = t.nodes := Table.ext_get? fun u => by
    by_cases old : s.hasNode u
    · obtain ⟨n, hn⟩ := hasNode_iff.1 old
      obtain ⟨n₁, hn₁, gains₁⟩ := h.kept hn
      obtain ⟨n₂, hn₂, gains₂⟩ := h'.kept hn
      rw [hn₁, hn₂, gains₁.unique gains₂]
    · by_cases new : u ∈ d.nodes.map (·.uid)
      · obtain ⟨m, hm, rfl⟩ := List.mem_map.1 new
        obtain ⟨n₁, hn₁, gains₁⟩ := h.added m hm
        obtain ⟨n₂, hn₂, gains₂⟩ := h'.added m hm
        rw [hn₁, hn₂, gains₁.unique gains₂]
      · have absent : ∀ {r}, s.Joins d r → r.nodes.get? u = none := fun hr =>
          Table.contains_eq_false_iff.1 (Bool.eq_false_iff.2 fun there =>
            (hr.nodes there).elim old new)
        rw [absent h, absent h']
  have edges : s'.edges = t.edges := Table.ext_get? fun x => Option.ext fun e =>
    h.edges.trans h'.edges.symm
  obtain ⟨_, _⟩ := s'
  obtain ⟨_, _⟩ := t
  exact congr (congrArg Store.mk nodes) edges

/-- The graph that a load makes, if nothing is refused. -/
def joined (s : Store) (d : Dump) : Store := (s.withNodes d.nodes).withEdges d.edges

/-- The listed nodes are added and no other. -/
theorem hasNode_withNodes {ms : List ListedNode} (free : s.nodes.Free (ms.map (·.uid)))
    {u : String} : (s.withNodes ms).hasNode u ↔ s.hasNode u ∨ u ∈ ms.map (·.uid) := by
  simp only [hasNode_iff, get?_withNodes_eq_some_iff free, exists_or, List.mem_map]
  refine or_congr_right ⟨?_, ?_⟩
  · rintro ⟨_, m, hm, eq, -⟩
    exact ⟨m, hm, eq⟩
  · rintro ⟨m, hm, eq⟩
    exact ⟨_, m, hm, eq, rfl⟩

/-- What a load makes of a dump that can be taken in is what the two make together. -/
theorem Accepts.joins (h : s.Accepts d) (filed : ∀ {u n}, s.nodes.get? u = some n → n.uid = u) :
    s.Joins d (s.joined d) := by
  have gains : ∀ {u n}, (s.withNodes d.nodes).nodes.get? u = some n → n.uid = u →
      ∃ n', (s.joined d).nodes.get? u = some n' ∧ n.Gains d.edges n' :=
    fun hn filed => gains_withEdges hn filed d.edges
  constructor
  case kept =>
    intro u n hn
    exact gains ((get?_withNodes_eq_some_iff h.nodes).2 (.inl hn)) (filed hn)
  case added =>
    intro m hm
    exact gains ((get?_withNodes_eq_some_iff h.nodes).2 (.inr ⟨m, hm, rfl, rfl⟩)) rfl
  case nodes =>
    intro u hu
    rw [joined, hasNode_withEdges] at hu
    exact (hasNode_withNodes h.nodes).1 hu
  case edges =>
    intro x e
    exact get?_edges_withEdges_eq_some_iff (s := s.withNodes d.nodes) h.edges

/-- A load goes through exactly if the graph can take in the dump. -/
theorem load_eq_ok_iff {l : Loaded} : s.load d = (.ok l, s') ↔
    s.Accepts d ∧ l = ⟨d.nodes.length, d.edges.length⟩ ∧ s' = s.joined d := by
  have loaded : s.load d = (.ok l, s') ↔ l = ⟨d.nodes.length, d.edges.length⟩ ∧
      ∃ t, s.loadNodes d.nodes = (none, t) ∧ t.loadEdges d.edges = (none, s') := by
    unfold load
    rcases s.loadNodes d.nodes with ⟨_ | refusal, t⟩
    · dsimp only
      cases eq : t.loadEdges d.edges with
      | mk refusal r => cases refusal <;> simp [eq, eq_comm]
    · simp
  rw [loaded]
  simp only [loadNodes_eq_none_iff, loadEdges_eq_none_iff]
  constructor
  · rintro ⟨rfl, t, ⟨nodes, rfl⟩, edges, ends, rfl⟩
    simp only [hasNode_withNodes nodes] at ends
    exact ⟨⟨nodes, edges, ends⟩, rfl, rfl⟩
  · rintro ⟨⟨nodes, edges, ends⟩, rfl, rfl⟩
    simp only [← hasNode_withNodes nodes] at ends
    exact ⟨rfl, _, ⟨nodes, rfl⟩, edges, ends, rfl⟩

/-- In a graph with every node under its uid, what a load makes can be said without an order. -/
theorem Consistent.load_eq_ok_iff_joins (h : s.Consistent) {l : Loaded} :
    s.load d = (.ok l, s') ↔
      s.Accepts d ∧ l = ⟨d.nodes.length, d.edges.length⟩ ∧ s.Joins d s' := by
  rw [load_eq_ok_iff]
  refine and_congr_right fun accepts => and_congr_right fun _ => ?_
  have joins := accepts.joins h.uid_node
  exact ⟨fun eq => eq ▸ joins, fun joins' => joins'.unique joins⟩

/-- Of dumps that say the same, a load makes the same. -/
theorem Consistent.load_eq_ok_iff_of_saysSame (h : s.Consistent) (same : d.SaysSame d')
    {l : Loaded} : s.load d' = (.ok l, s') ↔ s.load d = (.ok l, s') := by
  rw [h.load_eq_ok_iff_joins, h.load_eq_ok_iff_joins, same.lengths]
  exact and_congr ⟨(·.of_saysSame same.symm), (·.of_saysSame same)⟩
    (and_congr_right fun _ => ⟨(·.of_saysSame same.symm), (·.of_saysSame same)⟩)

/-- **What a load does.** It succeeds exactly on the dumps that the graph can take in; then it
counts the lists of the dump, and makes the one graph that has the nodes and edges of both. Neither
the order of the lists nor what they say of adjacency has any bearing on that. A record that leaves
adjacency out is complete; and a JSON text of the dump from which any of the adjacency lists are
left out, with their keys, is read as a dump that says the same. -/
theorem load_succeeds_iff_accepts (h : s.Reachable) (d : Dump) :
    ((∃ l, (s.load d).1 = .ok l) ↔ s.Accepts d) ∧
    (∀ l s', s.load d = (.ok l, s') ↔
      s.Accepts d ∧ l = ⟨d.nodes.length, d.edges.length⟩ ∧ s.Joins d s') ∧
    (∀ d', d.SaysSame d' → ∀ l s', s.load d' = (.ok l, s') ↔ s.load d = (.ok l, s')) ∧
    (∀ name uid label properties into out, ∃ n,
      (NodeFields.record name).complete ⟨some uid, some label, some properties, into, out⟩ = .ok n ∧
      n.listed.isolated = .isolated uid label (.ofList properties)) ∧
    ∀ (l : Layout) kept style, l.dump = d →
      Dump.restoreJson (Utf8.encode ((l.treeKeeping kept).write style)) =
        .ok (l.keeping kept).dump ∧
      d.SaysSame (l.keeping kept).dump := by
  refine ⟨⟨?_, fun accepts => ?_⟩, fun l s' => h.consistent.load_eq_ok_iff_joins,
    fun d' same l s' => h.consistent.load_eq_ok_iff_of_saysSame same, NodeFields.complete_record,
    fun l kept style shown => ?_⟩
  · rintro ⟨l, eq⟩
    exact (load_eq_ok_iff.1 (Prod.ext eq rfl)).1
  · exact ⟨_, congrArg Prod.fst (load_eq_ok_iff.2 ⟨accepts, rfl, rfl⟩)⟩
  · obtain rfl := shown
    exact ⟨Dump.restoreJson_treeKeeping style kept l, Dump.saysSame_keeping kept l⟩

/-- A graph of one edge takes in a dump of one node, a loop at it and an edge to the graph; the same
dump in another order with a false adjacency list; and what is read from a JSON text of this without
any adjacency list. But it takes in no edge that leads nowhere. -/
theorem load_succeeds_iff_accepts_of_bridge :
    let s := empty.after [.addNode "a" "L" .empty, .addNode "b" "L" .empty,
      .addEdge ⟨"e", "a", "K", "b", .empty⟩]
    let f : Edge := ⟨"f", "c", "K", "a", .empty⟩
    let g : Edge := ⟨"g", "c", "K", "c", .empty⟩
    let d : Dump := ⟨[⟨"c", "M", .empty, [], []⟩], [g, f]⟩
    let d' : Dump := ⟨[⟨"c", "M", .empty, ["e"], []⟩], [f, g]⟩
    s.Reachable ∧ d.SaysSame d' ∧ (s.load d').1 = .ok ⟨1, 2⟩ ∧ s.Joins d (s.load d').2 ∧
      (∃ d'', Dump.restoreJson (Utf8.encode
          ((d'.layout.treeKeeping fun _ _ => false).write .compact)) = .ok d'' ∧
        (s.load d'').1 = .ok ⟨1, 2⟩) ∧
      ¬ s.Accepts ⟨[], [f]⟩ := by
  intro s f g d d'
  have reachable : s.Reachable := ⟨_, rfl⟩
  have shuffled : d.SaysSame d' := ⟨.refl _, .swap _ _ _⟩
  obtain ⟨-, made, same, -⟩ := load_succeeds_iff_accepts reachable d
  obtain ⟨-, -, same', -, omitted⟩ := load_succeeds_iff_accepts reachable d'
  obtain ⟨dangling, -⟩ := load_succeeds_iff_accepts reachable ⟨[], [f]⟩
  have loaded : (s.load d').1 = .ok ⟨1, 2⟩ := by
    unfold s d' f g
    rfl
  obtain ⟨-, -, joins⟩ := (made _ _).1 ((same d' shuffled _ _).1 (Prod.ext loaded rfl))
  obtain ⟨read, alike⟩ := omitted _ (fun _ _ => false) .compact (Layout.dump_layout d')
  have reloaded := congrArg Prod.fst ((same' _ alike _ _).2 (Prod.ext loaded rfl))
  refine ⟨reachable, shuffled, loaded, joins, ⟨_, read, reloaded⟩, fun accepts => ?_⟩
  obtain ⟨l, eq⟩ := dangling.2 accepts
  have refused : (s.load ⟨[], [f]⟩).1 = .error (.missingEndpoint .source "c") := by
    unfold s f
    rfl
  rw [refused] at eq
  nomatch eq

/-! ## Dump and back -/

/-- To make a graph of a dump is to load it into the empty one. -/
theorem ofDump_eq_ok_iff : ofDump d = .ok s ↔ ∃ l, empty.load d = (.ok l, s) := by
  unfold ofDump
  rcases empty.load d with ⟨e | l, t⟩ <;> simp

/-- The edges of a graph are those under their uids. -/
theorem Consistent.mem_values_edges (h : s.Consistent) {x : String} {e : Edge} :
    e ∈ s.edges.values ∧ e.uid = x ↔ s.edges.get? x = some e :=
  Table.mem_values_and_iff h.uid_edge

/-- A dump lists the uids of the nodes in ascending order. -/
theorem Consistent.uids_dump (h : s.Consistent) : s.dump.nodes.map (·.uid) = s.nodes.keys := by
  rw [← h.uids_nodes, dump, List.map_map]
  rfl

/-- The uids of nodes are the keys under which they are filed. -/
theorem mem_keys_iff_hasNode {u : String} : u ∈ s.nodes.keys ↔ s.hasNode u := by
  rw [Table.mem_keys_iff, hasNode_iff]

/-- The empty graph can take in the dump of a graph. -/
theorem Consistent.accepts_dump (h : s.Consistent) : Store.empty.Accepts s.dump where
  nodes := ⟨h.uids_dump ▸ s.nodes.nodup_keys, fun _ _ => rfl⟩
  edges := ⟨h.uids_edges.symm ▸ s.edges.nodup_keys, fun _ _ => rfl⟩
  ends e he role := by
    obtain ⟨x, hx⟩ := Table.mem_values_iff.1 he
    rw [h.uids_dump, mem_keys_iff_hasNode]
    exact .inr (h.hasNode_nodeAt role hx)

/-- What the two make together is the graph that was dumped: what a node gains from all the edges
is what it noted. -/
theorem Consistent.joins_dump (h : s.Consistent) : Store.empty.Joins s.dump s where
  kept hn := nomatch hn
  added := by
    intro m hm
    obtain ⟨n, hn, rfl⟩ := List.mem_map.1 hm
    obtain ⟨u, hu⟩ := Table.mem_values_iff.1 hn
    obtain rfl := h.uid_node hu
    refine ⟨n, hu, rfl, rfl, rfl, fun role x => ?_⟩
    have nothing : x ∉ ((ListedNode.ofNode n).isolated.noted role).members := by
      cases role <;> exact List.not_mem_nil
    rw [h.mem_noted role hu, or_iff_right nothing]
    simp only [← h.mem_values_edges, and_assoc]
    rfl
  nodes hu := .inr (h.uids_dump ▸ mem_keys_iff_hasNode.2 hu)
  edges := by
    intro x e
    rw [← h.mem_values_edges]
    exact (or_iff_right fun he => nomatch he).symm

/-- **A dump leads back to its graph.** The graph that is read from the dump of a graph is that
graph again, adjacency included; and it still is if the dump is put in another order or lists other
adjacency. -/
theorem ofDump_dump (h : s.Reachable) :
    ofDump s.dump = .ok s ∧ ∀ d, s.dump.SaysSame d → ofDump d = .ok s := by
  have loaded : empty.load s.dump = (.ok _, s) := Consistent.empty.load_eq_ok_iff_joins.2
    ⟨h.consistent.accepts_dump, rfl, h.consistent.joins_dump⟩
  exact ⟨ofDump_eq_ok_iff.2 ⟨_, loaded⟩, fun d same =>
    ofDump_eq_ok_iff.2 ⟨_, (Consistent.empty.load_eq_ok_iff_of_saysSame same).2 loaded⟩⟩

/-- A graph with a loop and two parallel edges, of which there had been three. Its dump leads back
to it, also with the edges in another order. -/
theorem ofDump_dump_of_parallel_edges :
    let s := empty.after [.addNode "b" "L" .empty, .addNode "a" "L" .empty,
      .addEdge ⟨"z", "a", "K", "b", .empty⟩, .addEdge ⟨"y", "a", "K", "b", .empty⟩,
      .addEdge ⟨"x", "a", "K", "b", .empty⟩, .removeEdge "y", .addEdge ⟨"w", "a", "K", "a", .empty⟩]
    s.Reachable ∧ ofDump s.dump = .ok s ∧ ofDump ⟨s.dump.nodes, s.dump.edges.reverse⟩ = .ok s := by
  intro s
  have reachable : s.Reachable := ⟨_, rfl⟩
  obtain ⟨back, any⟩ := ofDump_dump reachable
  exact ⟨reachable, back, any _ ⟨.refl _, (List.reverse_perm _).symm⟩⟩

end Store

end PropertyGraph
