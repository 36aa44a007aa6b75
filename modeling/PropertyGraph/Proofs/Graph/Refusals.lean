import PropertyGraph.Graph.InPlace
import PropertyGraph.Proofs.Graph.Loading

/-!
# Refused calls

A refused call leaves the graph as it was, although a call writes in place (`InPlace.call`): every
check of a change comes before its first write, so by the time it writes it cannot be refused any
more (`InPlace.run_call`).

A load is the exception, as it makes many changes. `Store.StopsBehind` says where it stops and why,
from the uids in the graph and in the dump alone; what it leaves is what the part of the dump in
front of that would have made if it had been all.
-/

namespace PropertyGraph

namespace InPlace

/-! ## Writing in place -/

variable {α β : Type}

/-- Whether a program does to every graph what a change does, and nothing if that is refused. -/
def Does (p : Program α) (change : Store → Except GraphError (α × Store)) : Prop :=
  ∀ s, run p s = match change s with
    | .ok (a, s') => (.ok a, s')
    | .error e => (.error e, s)

/-- What a program does in place is what the call does whose change it makes. -/
theorem Does.run_map {p : Program α} {change : Store → Except GraphError (α × Store)}
    (h : Does p change) (answer : α → Answer) (s : Store) :
    run (answer <$> p) s = s.outcome answer (change s) := by
  rw [InPlace.run_map, h s]
  cases change s <;> rfl

/-- Adding a node in place. -/
theorem addNode_does (u label : String) (properties : PropertyMap) :
    Does (addNode u label properties) (·.addNode u label properties) := by
  intro s
  unfold InPlace.addNode Store.addNode
  cases there : s.hasNode u <;> simp [there, Except.map]

/-- Replacing a node in place. -/
theorem updateNode_does (r : Node) : Does (updateNode r) (·.updateNode r) := by
  intro s
  unfold InPlace.updateNode Store.updateNode writeNode
  cases hn : s.nodes.get? r.uid with
  | none => simp [hn]
  | some n =>
    have written : s.nodes.adjust r.uid (·.overwrite r) = s.nodes.insert r.uid (n.overwrite r) := by
      refine Table.ext_get? fun u => ?_
      rw [Table.get?_adjust, Table.get?_insert]
      split
      next eq => rw [eq, hn]; rfl
      next => rfl
    simp [hn, ← written, Except.map]

/-- Removing a node in place. -/
theorem removeNode_does (u : String) :
    Does (removeNode u) fun s => ((), ·) <$> s.removeNode u := by
  intro s
  unfold InPlace.removeNode Store.removeNode
  cases hn : s.nodes.get? u with
  | none => simp [hn, Functor.map, Except.map]
  | some n => by_cases bare : n.degree = 0 <;> simp [hn, bare, Functor.map, Except.map]

/-- Adding an edge in place, with three writes that all come behind the checks. -/
theorem addEdge_does (e : Edge) : Does (addEdge e) (·.addEdge e) := by
  intro s
  unfold InPlace.addEdge Store.addEdge writeNode
  cases source : s.hasNode e.source with
  | false => simp [source]
  | true =>
    cases target : s.hasNode e.target with
    | false => simp [source, target]
    | true => cases there : s.hasEdge e.uid <;> simp [source, target, there, Store.link, Except.map]

/-- Removing an edge in place. -/
theorem run_removeEdge (x : String) (s : Store) :
    run (removeEdge x) s = (.ok (s.removeEdge x).1, (s.removeEdge x).2) := by
  unfold InPlace.removeEdge Store.removeEdge writeNode
  cases he : s.edges.get? x <;> simp [he, Store.unlink, Except.map]

/-- How a loop ends whose changes are replayed. -/
def ended : Option GraphError × Store → Except GraphError Unit × Store
  | (none, s) => (.ok (), s)
  | (some e, s) => (.error e, s)

/-- A loop over changes in place is a replay of them. -/
theorem run_forM {p : α → Program β} {change : α → Store → Except GraphError (β × Store)}
    (h : ∀ a, Does (p a) (change a)) (l : List α) (s : Store) :
    run (l.forM fun a => discard (p a)) s =
      ended (replay (fun s a => (·.2) <$> change a s) s l) := by
  induction l generalizing s with
  | nil => rfl
  | cons a rest ih =>
    show run (((fun _ => ()) <$> p a) >>= fun _ => rest.forM fun a => discard (p a)) s = _
    rw [run_bind, run_map, h a s, replay]
    cases change a s with
    | error e => rfl
    | ok b => exact ih b.2

/-- Loading a dump in place. -/
theorem run_load (d : Dump) (s : Store) : run (load d) s = s.load d := by
  have nodes : ∀ s, run (d.nodes.forM fun n => discard (addNode n.uid n.label n.properties)) s =
      ended (s.loadNodes d.nodes) := fun s => by
    rw [run_forM fun n : ListedNode => addNode_does n.uid n.label n.properties]
    rfl
  have edges : ∀ s, run (d.edges.forM fun e => discard (addEdge e)) s =
      ended (s.loadEdges d.edges) := fun s => by
    rw [run_forM addEdge_does]
    rfl
  unfold InPlace.load Store.load
  rw [run_bind, nodes]
  rcases s.loadNodes d.nodes with ⟨_ | e, t⟩
  · show run (d.edges.forM _ >>= fun _ => _) t = _
    rw [run_bind, edges]
    dsimp only
    rcases t.loadEdges d.edges with ⟨_ | e, t⟩ <;> rfl
  · rfl

/-- **Writing in place makes no difference.** -/
theorem run_call (c : Call) (s : Store) : run (call c) s = s.call c := by
  cases c with
  | addNode u label properties => exact (addNode_does u label properties).run_map .node s
  | updateNode r => exact (updateNode_does r).run_map .node s
  | removeNode u => exact (removeNode_does u).run_map (fun _ => .done) s
  | addEdge e => exact (addEdge_does e).run_map .edge s
  | removeEdge x =>
    show run (Answer.found <$> removeEdge x) s = _
    rw [run_map, run_removeEdge]
    rfl
  | load d =>
    show run (Answer.loaded <$> load d) s = _
    rw [run_map, run_load]
    rfl

end InPlace

/-! ## Where a replay stops -/

/-- A replay that is refused has gone through what stands in front of the change that is. -/
theorem replay_eq_some_iff {σ α : Type} {change : σ → α → Except GraphError σ} {s s' : σ}
    {l : List α} {r : GraphError} : replay change s l = (some r, s') ↔
      ∃ front a rest, l = front ++ a :: rest ∧ replay change s front = (none, s') ∧
        change s' a = .error r := by
  induction l generalizing s with
  | nil => exact iff_of_false nofun not_exists_cut_nil
  | cons b l ih =>
    rw [replay, exists_cut_cons_iff]
    simp only [replay_cons_eq_none_iff]
    cases eq : change s b with
    | error e =>
      constructor
      · rintro ⟨⟩
        exact .inl ⟨rfl, eq⟩
      · rintro (⟨⟨⟩, refused⟩ | ⟨front, a, rest, -, ⟨t, ok, -⟩, -⟩)
        · rw [Except.error.inj (eq.symm.trans refused)]
        · cases ok
    | ok t =>
      dsimp only
      rw [ih]
      constructor
      · rintro ⟨front, a, rest, cut, through, refused⟩
        exact .inr ⟨front, a, rest, cut, ⟨t, rfl, through⟩, refused⟩
      · rintro (⟨⟨⟩, refused⟩ | ⟨front, a, rest, cut, ⟨t', ok, through⟩, refused⟩)
        · rw [eq] at refused
          cases refused
        · obtain rfl := Except.ok.inj ok
          exact ⟨front, a, rest, cut, through, refused⟩

/-! ## Why a change is refused -/

/-- **What is wrong with an edge** where these uids are nodes and those are edges: its source is
missing, or else its target is, or else its uid is taken. -/
inductive Edge.Fault (e : Edge) (isNode isEdge : String → Prop) : GraphError → Prop
  /-- Its source is missing, whatever else is wrong. -/
  | source (missing : ¬ isNode e.source) : Fault e isNode isEdge (.missingEndpoint .source e.source)
  /-- Its target is missing. -/
  | target (there : isNode e.source) (missing : ¬ isNode e.target) :
    Fault e isNode isEdge (.missingEndpoint .target e.target)
  /-- Its uid is taken. -/
  | uid (ends : ∀ role, isNode (e.nodeAt role)) (taken : isEdge e.uid) :
    Fault e isNode isEdge (.edgeAlreadyExists e.uid)

namespace Store

variable {s s' : Store} {d : Dump} {r : GraphError}

/-- A node is refused exactly if its uid is taken. -/
theorem addNode_eq_error_iff {u label : String} {properties : PropertyMap} :
    s.addNode u label properties = .error r ↔ s.hasNode u ∧ r = .nodeAlreadyExists u := by
  unfold addNode
  cases s.hasNode u <;> simp [eq_comm]

/-- An edge is refused exactly if there is a fault in it, with this fault as the reason. -/
theorem addEdge_eq_error_iff {e : Edge} :
    s.addEdge e = .error r ↔ e.Fault (s.hasNode ·) (s.hasEdge ·) r := by
  unfold addEdge
  constructor
  · intro eq
    split at eq
    next missing =>
      obtain rfl := Except.error.inj eq
      exact .source (by simpa using missing)
    next source =>
      split at eq
      next missing =>
        obtain rfl := Except.error.inj eq
        exact .target (by simpa using source) (by simpa using missing)
      next target =>
        split at eq
        next taken =>
          obtain rfl := Except.error.inj eq
          refine .uid (fun role => ?_) taken
          cases role with
          | source => show s.hasNode e.source; simpa using source
          | target => show s.hasNode e.target; simpa using target
        next => nomatch eq
  · rintro (missing | ⟨there, missing⟩ | ⟨ends, taken⟩)
    · simp [missing]
    · simp [there, missing]
    · simp [show s.hasNode e.source from ends .source, show s.hasNode e.target from ends .target,
        taken]

/-! ## Where a load stops -/

/-- **Where a load stops.** The part of a dump that `before` lists can be taken in; the record
behind it is refused, and with it the load. -/
inductive StopsBehind (s : Store) : (before d : Dump) → GraphError → Prop
  /-- The node behind it has the uid of a node of the graph or of one in front of it. No edge has
  been looked at. -/
  | node {ms rest : List ListedNode} {m : ListedNode} {es : List Edge}
      (accepts : s.Accepts ⟨ms, []⟩)
      (taken : s.hasNode m.uid ∨ m.uid ∈ ms.map (·.uid)) :
    StopsBehind s ⟨ms, []⟩ ⟨ms ++ m :: rest, es⟩ (.nodeAlreadyExists m.uid)
  /-- There is something wrong with the edge behind it, with all nodes of the dump added and all
  edges in front of it. -/
  | edge {ms : List ListedNode} {es rest : List Edge} {e : Edge} {r : GraphError}
      (accepts : s.Accepts ⟨ms, es⟩)
      (fault : e.Fault (fun u => s.hasNode u ∨ u ∈ ms.map (·.uid))
        (fun x => s.hasEdge x ∨ x ∈ es.map (·.uid)) r) :
    StopsBehind s ⟨ms, es⟩ ⟨ms, es ++ e :: rest⟩ r

/-- Nodes alone can be taken in if their uids are free. -/
theorem accepts_nodes_iff {ms : List ListedNode} :
    s.Accepts ⟨ms, []⟩ ↔ s.nodes.Free (ms.map (·.uid)) :=
  ⟨fun h => h.nodes, fun free => ⟨free, ⟨.nil, List.forall_mem_nil _⟩, List.forall_mem_nil _⟩⟩

/-- The listed nodes stop at the first whose uid is taken, with those in front of it added. -/
theorem loadNodes_eq_some_iff {ms : List ListedNode} : s.loadNodes ms = (some r, s') ↔
    ∃ front m rest, ms = front ++ m :: rest ∧ s.Accepts ⟨front, []⟩ ∧
      (s.hasNode m.uid ∨ m.uid ∈ front.map (·.uid)) ∧ r = .nodeAlreadyExists m.uid ∧
      s' = s.joined ⟨front, []⟩ := by
  rw [loadNodes, replay_eq_some_iff]
  constructor
  · rintro ⟨front, m, rest, rfl, through, refused⟩
    obtain ⟨free, rfl⟩ := loadNodes_eq_none_iff.1 through
    obtain ⟨taken, rfl⟩ := addNode_eq_error_iff.1 (map_eq_error_iff.1 refused)
    exact ⟨front, m, rest, rfl, accepts_nodes_iff.2 free, (hasNode_withNodes free).1 taken, rfl,
      rfl⟩
  · rintro ⟨front, m, rest, rfl, accepts, taken, rfl, rfl⟩
    have there := (hasNode_withNodes accepts.nodes).2 taken
    exact ⟨front, m, rest, rfl, loadNodes_eq_none_iff.2 ⟨accepts.nodes, rfl⟩,
      map_eq_error_iff.2 (addNode_eq_error_iff.2 ⟨there, rfl⟩)⟩

/-- What a graph and a dump make together has the nodes of both. -/
theorem Accepts.hasNode_joined (h : s.Accepts d) {u : String} :
    (s.joined d).hasNode u ↔ s.hasNode u ∨ u ∈ d.nodes.map (·.uid) := by
  rw [joined, hasNode_withEdges, hasNode_withNodes h.nodes]

/-- It has the edges of both. -/
theorem Accepts.hasEdge_joined (h : s.Accepts d) {x : String} :
    (s.joined d).hasEdge x ↔ s.hasEdge x ∨ x ∈ d.edges.map (·.uid) := by
  have edges : ∀ e, (s.joined d).edges.get? x = some e ↔
      s.edges.get? x = some e ∨ e ∈ d.edges ∧ e.uid = x :=
    fun e => get?_edges_withEdges_eq_some_iff (s := s.withNodes d.nodes) h.edges
  rw [hasEdge, hasEdge, Table.contains_iff, Table.contains_iff, List.mem_map]
  simp only [edges, exists_or]

/-- The listed edges stop at the first with a fault, with those in front of it added. -/
theorem loadEdges_eq_some_iff {ms : List ListedNode} (free : s.nodes.Free (ms.map (·.uid)))
    {es : List Edge} : (s.withNodes ms).loadEdges es = (some r, s') ↔
      ∃ front e rest, es = front ++ e :: rest ∧ s.Accepts ⟨ms, front⟩ ∧
        e.Fault (fun u => s.hasNode u ∨ u ∈ ms.map (·.uid))
          (fun x => s.hasEdge x ∨ x ∈ front.map (·.uid)) r ∧
        s' = s.joined ⟨ms, front⟩ := by
  have refused : ∀ {front e}, s.Accepts ⟨ms, front⟩ →
      ((s.joined ⟨ms, front⟩).addEdge e = .error r ↔
        e.Fault (fun u => s.hasNode u ∨ u ∈ ms.map (·.uid))
          (fun x => s.hasEdge x ∨ x ∈ front.map (·.uid)) r) := by
    intro front e accepts
    rw [addEdge_eq_error_iff]
    simp only [accepts.hasNode_joined, accepts.hasEdge_joined]
  have through : ∀ {front}, (s.withNodes ms).loadEdges front = (none, s') ↔
      s.Accepts ⟨ms, front⟩ ∧ s' = s.joined ⟨ms, front⟩ := by
    intro front
    rw [loadEdges_eq_none_iff, ← and_assoc]
    refine and_congr_left fun _ => ?_
    simp only [hasNode_withNodes free]
    exact ⟨fun h => ⟨free, h.1, h.2⟩, fun h => ⟨h.edges, h.ends⟩⟩
  rw [loadEdges, replay_eq_some_iff]
  constructor
  · rintro ⟨front, e, rest, cut, ran, fault⟩
    obtain ⟨accepts, rfl⟩ := through.1 ran
    exact ⟨front, e, rest, cut, accepts, (refused accepts).1 (map_eq_error_iff.1 fault), rfl⟩
  · rintro ⟨front, e, rest, cut, accepts, fault, rfl⟩
    exact ⟨front, e, rest, cut, through.2 ⟨accepts, rfl⟩,
      map_eq_error_iff.2 ((refused accepts).2 fault)⟩

/-- A load that is refused has made what the part in front of the refused record would have. -/
theorem load_eq_error_iff :
    s.load d = (.error r, s') ↔ ∃ before, s.StopsBehind before d r ∧ s' = s.joined before := by
  obtain ⟨ms, es⟩ := d
  have stages : s.load ⟨ms, es⟩ = (.error r, s') ↔ s.loadNodes ms = (some r, s') ∨
      ∃ t, s.loadNodes ms = (none, t) ∧ t.loadEdges es = (some r, s') := by
    unfold load
    rcases s.loadNodes ms with ⟨_ | refusal, t⟩
    · dsimp only
      cases eq : t.loadEdges es with
      | mk refusal r => cases refusal <;> simp [eq, eq_comm]
    · simp
  rw [stages]
  constructor
  · rintro (stopped | ⟨t, nodes, stopped⟩)
    · obtain ⟨front, m, rest, rfl, accepts, taken, rfl, rfl⟩ := loadNodes_eq_some_iff.1 stopped
      exact ⟨_, .node accepts taken, rfl⟩
    · obtain ⟨free, rfl⟩ := loadNodes_eq_none_iff.1 nodes
      obtain ⟨front, e, rest, rfl, accepts, fault, rfl⟩ := (loadEdges_eq_some_iff free).1 stopped
      exact ⟨_, .edge accepts fault, rfl⟩
  · rintro ⟨before, ⟨accepts, taken⟩ | ⟨accepts, fault⟩, rfl⟩
    · exact .inl (loadNodes_eq_some_iff.2 ⟨_, _, _, rfl, accepts, taken, rfl, rfl⟩)
    · refine .inr ⟨_, loadNodes_eq_none_iff.2 ⟨accepts.nodes, rfl⟩, ?_⟩
      exact (loadEdges_eq_some_iff accepts.nodes).2 ⟨_, _, _, rfl, accepts, fault, rfl⟩

/-- What stands in front of a refused record can be taken in. -/
theorem StopsBehind.accepts {before : Dump} (h : s.StopsBehind before d r) : s.Accepts before := by
  cases h <;> assumption

/-- Where a load stops, the graph has been joined with what stands in front. -/
theorem Consistent.load_eq_error_iff_joins (h : s.Consistent) :
    s.load d = (.error r, s') ↔ ∃ before, s.StopsBehind before d r ∧ s.Joins before s' := by
  rw [load_eq_error_iff]
  refine exists_congr fun before => and_congr_right fun stops => ?_
  have joins := stops.accepts.joins h.uid_node
  exact ⟨fun eq => eq ▸ joins, fun joins' => joins'.unique joins⟩

/-! ## What a refused call leaves -/

/-- A change that is refused leaves the graph as it was. -/
theorem eq_of_outcome_eq_error {α : Type} {answer : α → Answer}
    {change : Except GraphError (α × Store)} (h : s.outcome answer change = (.error r, s')) :
    s' = s := by
  cases change with
  | error e => exact (Prod.mk.inj h).2.symm
  | ok a => nomatch h

/-- So does every call that is refused and makes one change only. -/
theorem eq_of_call_eq_error {c : Call} (single : ∀ d, c ≠ .load d)
    (h : s.call c = (.error r, s')) : s' = s := by
  cases c with
  | addNode => exact eq_of_outcome_eq_error h
  | updateNode => exact eq_of_outcome_eq_error h
  | removeNode => exact eq_of_outcome_eq_error h
  | addEdge => exact eq_of_outcome_eq_error h
  | removeEdge => nomatch h
  | load d => exact absurd rfl (single d)

/-- Looking for an edge to remove changes nothing if there is none. -/
theorem eq_of_call_removeEdge {x : String} (h : s.call (.removeEdge x) = (.ok (.found false), s')) :
    s' = s := by
  cases he : s.edges.get? x with
  | none =>
    rw [call, removeEdge_of_none he] at h
    exact (Prod.mk.inj h).2.symm
  | some e =>
    rw [call, removeEdge_of_some he] at h
    cases h

/-- A load is refused as a call exactly if it is refused. -/
theorem call_load_eq_error_iff : s.call (.load d) = (.error r, s') ↔ s.load d = (.error r, s') := by
  show ((s.load d).1.map Answer.loaded, (s.load d).2) = _ ↔ _
  rcases s.load d with ⟨_ | l, t⟩ <;> simp [Except.map]

/-- **What a refused call leaves.** Calls that write in place do the same as calls that make a new
graph. If a call about one node or one edge is refused, or there is no edge to remove, the graph is
as it was. A load is refused exactly at the first record of a node with a uid that is taken, or
else at the first record of an edge with something wrong, for the reason that is found there; it
leaves the one graph that the records in front of that make, each edge noted at its ends. -/
theorem refused_calls_leave (h : s.Reachable) :
    (∀ c, InPlace.run (InPlace.call c) s = s.call c) ∧
    (∀ c r s', (∀ d, c ≠ .load d) → s.call c = (.error r, s') → s' = s) ∧
    (∀ x s', s.call (.removeEdge x) = (.ok (.found false), s') → s' = s) ∧
    ∀ d r s', s.call (.load d) = (.error r, s') ↔
      ∃ before, s.StopsBehind before d r ∧ s.Joins before s' := by
  refine ⟨fun c => InPlace.run_call c s, fun c r s' => eq_of_call_eq_error,
    fun x s' => eq_of_call_removeEdge, fun d r s' => ?_⟩
  rw [call_load_eq_error_iff]
  exact h.consistent.load_eq_error_iff_joins

/-- A graph of one edge is left as it was by an edge without a target, by a node that is there
already, and by an edge to remove that is not. A dump of a node and three edges is loaded up to the
second edge, which has no target. -/
theorem refused_calls_leave_of_dangling_edge :
    let s := empty.after [.addNode "a" "L" .empty, .addNode "b" "L" .empty,
      .addEdge ⟨"e", "a", "K", "b", .empty⟩]
    let f : Edge := ⟨"f", "c", "K", "a", .empty⟩
    let g : Edge := ⟨"g", "a", "K", "z", .empty⟩
    let d : Dump := ⟨[⟨"c", "M", .empty, [], []⟩], [f, g, f]⟩
    s.Reachable ∧ (InPlace.run (InPlace.call (.addEdge g)) s).2 = s ∧
      (s.call (.addNode "a" "M" .empty)).2 = s ∧ (s.call (.removeEdge "f")).2 = s ∧
      ∃ s', s.call (.load d) = (.error (.missingEndpoint .target "z"), s') ∧
        s.Joins ⟨d.nodes, [f]⟩ s' := by
  intro s f g d
  have reachable : s.Reachable := ⟨_, rfl⟩
  obtain ⟨inPlace, refused, absent, loads⟩ := refused_calls_leave reachable
  have outcome : ∀ {c x}, (s.call c).1 = x → s.call c = (x, (s.call c).2) := fun h => Prod.ext h rfl
  have dangling : (s.call (.addEdge g)).1 = .error (.missingEndpoint .target "z") := by
    unfold s g
    rfl
  have taken : (s.call (.addNode "a" "M" .empty)).1 = .error (.nodeAlreadyExists "a") := by
    unfold s
    rfl
  have nothing : (s.call (.removeEdge "f")).1 = .ok (.found false) := by
    unfold s
    rfl
  have front : (s.load ⟨d.nodes, [f]⟩).1 = .ok ⟨1, 1⟩ := by
    unfold s d f
    rfl
  have accepts : s.Accepts ⟨d.nodes, [f]⟩ := (load_eq_ok_iff.1 (Prod.ext front rfl)).1
  have stops : s.StopsBehind ⟨d.nodes, [f]⟩ d (.missingEndpoint .target "z") :=
    .edge accepts (.target (.inl rfl) (by decide))
  have joins := accepts.joins reachable.consistent.uid_node
  refine ⟨reachable, ?_, ?_, ?_, _, (loads d _ _).2 ⟨_, stops, joins⟩, joins⟩
  · rw [inPlace]
    exact refused _ _ _ (by simp) (outcome dangling)
  · exact refused _ _ _ (by simp) (outcome taken)
  · exact absent _ _ (outcome nothing)

end Store

end PropertyGraph
