import PropertyGraph.Proofs.Graph.Bookkeeping

/-!
# Calls in either order

Calls that name different nodes and different edges may still change the same node: two new edges
can share an end, and a node can be updated while an edge is noted at it. Even so the order of
independent calls (`Store.Independent`) leaves no trace.

In a ledger such calls do not meet. Every call looks up a few entries, which decide whether it is
refused (`Ledger.verdict`), and writes at most one (`Ledger.write`); an independent call writes
none of the entries that the other one looks up (`Independent.alike`). As a consistent graph can be
told from its ledger, what holds of the ledger holds of the graph, with all that is noted at its
nodes (`independent_calls_commute`).
-/

namespace PropertyGraph

/-! ## What a call names -/

namespace Call

/-- The uid of the node that a call adds, updates or removes. -/
def node? : Call → Option String
  | .addNode uid _ _ => some uid
  | .updateNode replacement => some replacement.uid
  | .removeNode uid => some uid
  | .addEdge _ | .removeEdge _ | .load _ => none

/-- The uid of the edge that a call adds or removes. -/
def edge? : Call → Option String
  | .addEdge e => some e.uid
  | .removeEdge uid => some uid
  | .addNode _ _ _ | .updateNode _ | .removeNode _ | .load _ => none

/-- What a call writes down under the uid of the node it names. -/
def description? : Call → Option Description
  | .addNode _ label properties => some ⟨label, properties⟩
  | .updateNode replacement => some ⟨replacement.label, replacement.properties⟩
  | .removeNode _ | .addEdge _ | .removeEdge _ | .load _ => none

/-- What a call writes down under the uid of the edge it names. -/
def connection? : Call → Option Connection
  | .addEdge e => some e.connection
  | .addNode _ _ _ | .updateNode _ | .removeNode _ | .removeEdge _ | .load _ => none

end Call

/-- An answer without the edges at the node that it shows. -/
def Answer.bare : Answer → Answer
  | .node n => .node (.isolated n.uid n.label n.properties)
  | .edge e => .edge e
  | .done => .done
  | .found there => .found there
  | .loaded summary => .loaded summary

/-- **Two answers to a call are the same**, which for an update leaves open what edges are at the
node that it shows. -/
def Call.SameAnswer : Call → (x y : Except GraphError Answer) → Prop
  | .updateNode _, x, y => x.map Answer.bare = y.map Answer.bare
  | _, x, y => x = y

namespace Store

/-- Whether a call that makes a node come or go leaves alone the ends of the edge that another
call adds or removes. -/
def Spares (s : Store) : Call → Call → Prop
  | .addNode uid _ _, .addEdge e => ∀ role, e.nodeAt role ≠ uid
  | .removeNode uid, .addEdge e => ∀ role, e.nodeAt role ≠ uid
  | .removeNode uid, .removeEdge x => ∀ e, s.edges.get? x = some e → ∀ role, e.nodeAt role ≠ uid
  | _, _ => True

/-- **Independent calls,** which may still change adjacency at the same nodes. -/
structure Independent (s : Store) (a b : Call) : Prop where
  /-- Each is about one node or one edge. -/
  single : ∀ d, a ≠ .load d ∧ b ≠ .load d
  /-- No node is named by both. -/
  nodes : ∀ uid, a.node? = some uid → b.node? ≠ some uid
  /-- No edge is named by both. -/
  edges : ∀ uid, a.edge? = some uid → b.edge? ≠ some uid
  /-- The first leaves alone the ends of the edge of the second. -/
  spares : s.Spares a b
  /-- So does the second with the edge of the first. -/
  spared : s.Spares b a

/-- Independence is mutual. -/
theorem Independent.symm {s : Store} {a b : Call} (h : s.Independent a b) : s.Independent b a where
  single d := (h.single d).symm
  nodes uid hb ha := h.nodes uid ha hb
  edges uid hb ha := h.edges uid ha hb
  spares := h.spared
  spared := h.spares

end Store

/-! ## Looking up and writing -/

namespace Ledger

variable {l l' : Ledger} {c : Call}

/-- What a call answers, less the edges at the node that it shows. -/
def verdict (l : Ledger) : Call → Except GraphError Answer
  | .addNode uid label properties =>
    if l.nodes.contains uid then .error (.nodeAlreadyExists uid)
    else .ok (.node (.isolated uid label properties))
  | .updateNode r =>
    if l.nodes.contains r.uid then .ok (.node (.isolated r.uid r.label r.properties))
    else .error (.nodeNotFound r.uid)
  | .removeNode uid =>
    if !l.nodes.contains uid then .error (.nodeNotFound uid)
    else if l.ends uid ≠ 0 then .error (.nodeHasEdges uid (l.ends uid))
    else .ok .done
  | .addEdge e => (fun _ => .edge e) <$> l.addEdge e
  | .removeEdge uid => .ok (.found (l.edges.contains uid))
  | .load d => (l.load d).1.map .loaded

/-- What a call writes down, if nothing speaks against it. -/
def write (l : Ledger) : Call → Ledger
  | .addNode uid label properties => { l with nodes := l.nodes.insert uid ⟨label, properties⟩ }
  | .updateNode r => { l with nodes := l.nodes.insert r.uid ⟨r.label, r.properties⟩ }
  | .removeNode uid => { l with nodes := l.nodes.erase uid }
  | .addEdge e => { l with edges := l.edges.insert e.uid e.connection }
  | .removeEdge uid => { l with edges := l.edges.erase uid }
  | .load d => (l.load d).2

/-- Of a node that has just been written down the bare answer shows what was written. -/
theorem bare_node (l : Ledger) (u : String) (d : Description) :
    (Answer.node <$> Ledger.node { l with nodes := l.nodes.insert u d } u).map Answer.bare =
      .ok (.node (.isolated u d.label d.properties)) := by
  unfold Ledger.node
  rw [Table.get?_insert, if_pos rfl]
  rfl

/-- The verdict is the answer to a call, but for the edges at a node. -/
theorem bare_call (l : Ledger) (c : Call) : (l.call c).1.map Answer.bare = l.verdict c := by
  cases c with
  | addNode u label properties =>
    rw [call, verdict, addNode]
    cases l.nodes.contains u with
    | true => rfl
    | false => exact bare_node l u ⟨label, properties⟩
  | updateNode r =>
    rw [call, verdict]
    cases l.nodes.contains r.uid with
    | true => exact bare_node l r.uid ⟨r.label, r.properties⟩
    | false => rfl
  | removeNode u =>
    rw [call, verdict]
    cases l.nodes.contains u with
    | true => by_cases bare : l.ends u = 0 <;> simp [bare, Except.map, Answer.bare]
    | false => rfl
  | addEdge e =>
    rw [call, verdict]
    cases l.addEdge e <;> rfl
  | removeEdge x => rfl
  | load d =>
    show ((l.load d).1.map Answer.loaded).map Answer.bare = (l.load d).1.map Answer.loaded
    cases (l.load d).1 <;> rfl

/-- A call writes everything or nothing. -/
theorem call_snd (single : ∀ d, c ≠ .load d) :
    (l.call c).2 = if (l.verdict c).isOk then l.write c else l := by
  cases c with
  | addNode u label properties =>
    rw [call, verdict, addNode]
    cases l.nodes.contains u <;> rfl
  | updateNode r =>
    rw [call, verdict]
    cases l.nodes.contains r.uid <;> rfl
  | removeNode u =>
    rw [call, verdict]
    cases l.nodes.contains u with
    | true => by_cases bare : l.ends u = 0 <;> simp [bare, Except.isOk, Except.toBool, write]
    | false => rfl
  | addEdge e =>
    rw [call, verdict, addEdge]
    cases l.nodes.contains e.source <;> cases l.nodes.contains e.target <;>
      cases l.edges.contains e.uid <;> rfl
  | removeEdge x => rfl
  | load d => exact absurd rfl (single d)

/-- A call writes under the uid of one node at most. -/
theorem get?_nodes_write (l : Ledger) (single : ∀ d, c ≠ .load d) (u : String) :
    (l.write c).nodes.get? u = if c.node? = some u then c.description? else l.nodes.get? u := by
  cases c with
  | addNode => simp [write, Call.node?, Call.description?, Table.get?_insert, eq_comm]
  | updateNode => simp [write, Call.node?, Call.description?, Table.get?_insert, eq_comm]
  | removeNode => simp [write, Call.node?, Call.description?, Table.get?_erase, eq_comm]
  | addEdge => rfl
  | removeEdge => rfl
  | load d => exact absurd rfl (single d)

/-- It writes under the uid of one edge at most. -/
theorem get?_edges_write (l : Ledger) (single : ∀ d, c ≠ .load d) (x : String) :
    (l.write c).edges.get? x = if c.edge? = some x then c.connection? else l.edges.get? x := by
  cases c with
  | addNode => rfl
  | updateNode => rfl
  | removeNode => rfl
  | addEdge => simp [write, Call.edge?, Call.connection?, Table.get?_insert, eq_comm]
  | removeEdge => simp [write, Call.edge?, Call.connection?, Table.get?_erase, eq_comm]
  | load d => exact absurd rfl (single d)

/-- Entries under different uids can be written in either order. -/
theorem write_comm {s : Store} {a b : Call} (h : s.Independent a b) (l : Ledger) :
    (l.write a).write b = (l.write b).write a := by
  have first := fun d => (h.single d).1
  have second := fun d => (h.single d).2
  refine ext_get? (fun u => ?_) (fun x => ?_)
  · simp only [get?_nodes_write _ first, get?_nodes_write _ second]
    by_cases ha : a.node? = some u
    · rw [if_neg (h.nodes u ha), if_pos ha, if_pos ha]
    · rw [if_neg ha, if_neg ha]
  · simp only [get?_edges_write _ first, get?_edges_write _ second]
    by_cases ha : a.edge? = some x
    · rw [if_neg (h.edges x ha), if_pos ha, if_pos ha]
    · rw [if_neg ha, if_neg ha]

/-! ## What a call does not see -/

@[simp] theorem nodeAt_edge (e : Edge) (x : String) (role : Endpoint) :
    (e.connection.edge x).nodeAt role = e.nodeAt role := by
  cases role <;> rfl

/-- Whether two ledgers agree on what a call looks up. -/
def Alike (l l' : Ledger) : Call → Prop
  | .addNode uid _ _ => l.nodes.contains uid = l'.nodes.contains uid
  | .updateNode r => l.nodes.contains r.uid = l'.nodes.contains r.uid
  | .removeNode uid => l.nodes.contains uid = l'.nodes.contains uid ∧ l.ends uid = l'.ends uid
  | .addEdge e => (∀ role, l.nodes.contains (e.nodeAt role) = l'.nodes.contains (e.nodeAt role)) ∧
    l.edges.contains e.uid = l'.edges.contains e.uid
  | .removeEdge uid => l.edges.contains uid = l'.edges.contains uid
  | .load _ => l = l'

theorem Alike.refl (l : Ledger) (c : Call) : l.Alike l c := by
  cases c <;> simp [Alike]

/-- A verdict depends on nothing but what the call looks up. -/
theorem Alike.verdict_eq (h : l.Alike l' c) : l.verdict c = l'.verdict c := by
  cases c with
  | addNode u label properties => rw [verdict, verdict, show _ = _ from h]
  | updateNode r => rw [verdict, verdict, show _ = _ from h]
  | removeNode u => rw [verdict, verdict, h.1, h.2]
  | addEdge e =>
    rw [verdict, verdict, addEdge, addEdge, show e.source = e.nodeAt .source from rfl,
      show e.target = e.nodeAt .target from rfl, h.1, h.1, h.2]
    cases l'.nodes.contains (e.nodeAt .source) <;> cases l'.nodes.contains (e.nodeAt .target) <;>
      cases l'.edges.contains e.uid <;> rfl
  | removeEdge x => rw [verdict, verdict, show _ = _ from h]
  | load d => rw [show l = l' from h]

/-- The edges at a node are those under the uids whose connection says so. -/
theorem ends_congr {u : String}
    (same : ∀ x role, (l.edges.get? x).filter (fun c => (c.edge x).nodeAt role = u) =
      (l'.edges.get? x).filter fun c => (c.edge x).nodeAt role = u) :
    l.ends u = l'.ends u := by
  have filed : ∀ role, l.edges.filter (fun x c => (c.edge x).nodeAt role = u) =
      l'.edges.filter (fun x c => (c.edge x).nodeAt role = u) := by
    intro role
    refine Table.ext_get? fun x => ?_
    rw [Table.get?_filter, Table.get?_filter, same x role]
  have listed : ∀ (l : Ledger) role, l.allEdges.filter (fun e => e.nodeAt role = u) =
      (l.edges.filter fun x c => (c.edge x).nodeAt role = u).toList.map fun e => e.2.edge e.1 := by
    intro l role
    rw [allEdges, List.filter_map]
    rfl
  show (l.allEdges.filter fun e => e.nodeAt .source = u).length +
      (l.allEdges.filter fun e => e.nodeAt .target = u).length =
    (l'.allEdges.filter fun e => e.nodeAt .source = u).length +
      (l'.allEdges.filter fun e => e.nodeAt .target = u).length
  rw [listed, listed, listed, listed, filed, filed]

/-- Whether a node is there does not change under a call that names another. -/
theorem contains_nodes_write (single : ∀ d, c ≠ .load d) {u : String} (other : c.node? ≠ some u) :
    (l.write c).nodes.contains u = l.nodes.contains u := by
  rw [Table.contains, get?_nodes_write l single, if_neg other, Table.contains]

/-- Nor does it for an edge. -/
theorem contains_edges_write (single : ∀ d, c ≠ .load d) {x : String} (other : c.edge? ≠ some x) :
    (l.write c).edges.contains x = l.edges.contains x := by
  rw [Table.contains, get?_edges_write l single, if_neg other, Table.contains]

/-- A node that can be replaced is there. -/
theorem contains_of_verdict {r : Node} (ok : (l.verdict (.updateNode r)).isOk) :
    l.nodes.contains r.uid = true := by
  cases there : l.nodes.contains r.uid with
  | true => rfl
  | false =>
    rw [verdict, there] at ok
    nomatch ok

/-- An edge that can be added is not. -/
theorem fresh_of_verdict {e : Edge} (ok : (l.verdict (.addEdge e)).isOk) :
    l.edges.get? e.uid = none := by
  rw [← Table.contains_eq_false_iff]
  cases taken : l.edges.contains e.uid with
  | false => rfl
  | true =>
    rw [verdict, addEdge, taken] at ok
    split at ok
    · nomatch ok
    · split at ok <;> nomatch ok

end Ledger

namespace Store

open Ledger

variable {s : Store} {a b : Call} {e : Edge} {u : String}

/-- Independent calls leave each other's nodes where they are: an update may be of a node that the
other call needs, but then the node was there before. -/
theorem Independent.contains_nodeAt (h : s.Independent a (.addEdge e))
    (ok : (s.ledger.verdict a).isOk) (role : Endpoint) :
    (s.ledger.write a).nodes.contains (e.nodeAt role) =
      s.ledger.nodes.contains (e.nodeAt role) := by
  have single := fun d => (h.single d).1
  cases a with
  | addNode u label properties =>
    exact contains_nodes_write single fun eq => h.spares role (Option.some.inj eq).symm
  | updateNode r =>
    by_cases eq : r.uid = e.nodeAt role
    · rw [← eq, contains_of_verdict ok, write, Table.contains, Table.get?_insert, if_pos rfl]
      rfl
    · exact contains_nodes_write single fun eq' => eq (Option.some.inj eq')
  | removeNode u =>
    exact contains_nodes_write single fun eq => h.spares role (Option.some.inj eq).symm
  | addEdge f => rfl
  | removeEdge x => rfl
  | load d => exact absurd rfl (single d)

/-- An edge that an independent call adds or removes is not at a node that is to be removed. -/
theorem Independent.ends_write (h : s.Independent a (.removeNode u))
    (ok : (s.ledger.verdict a).isOk) : (s.ledger.write a).ends u = s.ledger.ends u := by
  refine ends_congr fun x role => ?_
  rw [get?_edges_write _ fun d => (h.single d).1]
  split
  next named =>
    cases a with
    | addEdge e =>
      obtain rfl : e.uid = x := Option.some.inj named
      have away : e.nodeAt role ≠ u := h.spared role
      rw [fresh_of_verdict ok]
      show (some e.connection).filter _ = none
      rw [Option.filter_some, nodeAt_edge, if_neg (by simpa using away)]
    | removeEdge y =>
      obtain rfl : y = x := Option.some.inj named
      show none = _
      rw [get?_ledger_edges]
      cases he : s.edges.get? y with
      | none => rfl
      | some e =>
        have away : e.nodeAt role ≠ u := h.spared e he role
        rw [Option.map_some, Option.filter_some, nodeAt_edge,
          if_neg (by simpa using away)]
    | addNode => nomatch named
    | updateNode => nomatch named
    | removeNode => nomatch named
    | load => nomatch named
  next => rfl

/-- **What one call looks up, an independent call does not write.** -/
theorem Independent.alike (h : s.Independent a b) : s.ledger.Alike (s.ledger.call a).2 b := by
  have single := fun d => (h.single d).1
  rw [call_snd single]
  split
  case isFalse => exact .refl _ _
  case isTrue ok =>
    cases b with
    | addNode u label properties =>
      exact (contains_nodes_write single fun eq => h.nodes u eq rfl).symm
    | updateNode r => exact (contains_nodes_write single fun eq => h.nodes r.uid eq rfl).symm
    | removeNode u =>
      exact ⟨(contains_nodes_write single fun eq => h.nodes u eq rfl).symm, (h.ends_write ok).symm⟩
    | addEdge e =>
      exact ⟨fun role => (h.contains_nodeAt ok role).symm,
        (contains_edges_write single fun eq => h.edges e.uid eq rfl).symm⟩
    | removeEdge x => exact (contains_edges_write single fun eq => h.edges x eq rfl).symm
    | load d => exact absurd rfl (h.single d).2

/-- Behind an independent call, a call writes what it would have written without. -/
theorem Independent.call_call (h : s.Independent a b) :
    ((s.ledger.call a).2.call b).2 =
      if (s.ledger.verdict b).isOk then (s.ledger.call a).2.write b else (s.ledger.call a).2 := by
  rw [call_snd fun d => (h.single d).2, h.alike.verdict_eq]

/-- What independent calls leave of a ledger is the same in either order. -/
theorem Independent.ledger_comm (h : s.Independent a b) :
    ((s.ledger.call a).2.call b).2 = ((s.ledger.call b).2.call a).2 := by
  rw [h.call_call, h.symm.call_call, call_snd fun d => (h.single d).1,
    call_snd fun d => (h.single d).2]
  split <;> split
  · exact write_comm h _
  · rfl
  · rfl
  · rfl

/-! ## Graphs -/

/-- Graph and ledger answer a call alike. -/
theorem Consistent.answer_ledger (hs : s.Consistent) (c : Call) :
    (s.ledger.call c).1 = (s.call c).1 := by
  rw [hs.call_ledger]

/-- They agree again behind it. -/
theorem Consistent.ledger_call (hs : s.Consistent) (c : Call) :
    (s.call c).2.ledger = (s.ledger.call c).2 := by
  rw [hs.call_ledger]

/-- A call has the same verdict behind an independent one. -/
theorem Independent.bare_answer (h : s.Independent a b) (hs : s.Consistent) :
    ((s.call a).2.call b).1.map Answer.bare = (s.call b).1.map Answer.bare := by
  rw [← (hs.call a).answer_ledger, ← hs.answer_ledger, bare_call, bare_call, hs.ledger_call,
    h.alike.verdict_eq]

/-- Only an update shows a node that can have edges. -/
theorem map_bare_call {c : Call} (other : ∀ r, c ≠ .updateNode r) (s : Store) :
    (s.call c).1.map Answer.bare = (s.call c).1 := by
  cases c with
  | addNode u label properties =>
    show (s.outcome _ (s.addNode u label properties)).1.map _ = (s.outcome _ _).1
    unfold addNode
    cases s.hasNode u <;> rfl
  | updateNode r => exact absurd rfl (other r)
  | removeNode u =>
    show (s.outcome _ (((), ·) <$> s.removeNode u)).1.map _ = (s.outcome _ _).1
    cases s.removeNode u <;> rfl
  | addEdge e =>
    show (s.outcome _ (s.addEdge e)).1.map _ = (s.outcome _ _).1
    cases s.addEdge e <;> rfl
  | removeEdge x => rfl
  | load d =>
    show ((s.load d).1.map Answer.loaded).map _ = (s.load d).1.map Answer.loaded
    cases (s.load d).1 <;> rfl

/-- Where verdicts agree, so do answers: only an update shows a node that may have edges. -/
theorem sameAnswer_of_bare {c : Call} {t : Store}
    (same : (s.call c).1.map Answer.bare = (t.call c).1.map Answer.bare) :
    c.SameAnswer (s.call c).1 (t.call c).1 := by
  have whole (other : ∀ r, c ≠ .updateNode r) : (s.call c).1 = (t.call c).1 := by
    rwa [map_bare_call other, map_bare_call other] at same
  cases c with
  | updateNode r => exact same
  | addNode | removeNode | addEdge | removeEdge | load => exact whole nofun

/-- **Independent calls commute.** Whatever calls have made the graph, two calls that name
different nodes and edges, of which none makes an end of the other's edge come or go, leave the
same graph in either order, adjacency included. Each of them is refused in one order exactly if it
is in the other, with the same error, and otherwise answers the same but for the edges at the node
that an update shows. -/
theorem independent_calls_commute (hs : s.Reachable) (h : s.Independent a b) :
    s.after [a, b] = s.after [b, a] ∧
    a.SameAnswer (s.call a).1 ((s.call b).2.call a).1 ∧
    b.SameAnswer ((s.call a).2.call b).1 (s.call b).1 := by
  have hs := hs.consistent
  refine ⟨?_, sameAnswer_of_bare (h.symm.bare_answer hs).symm,
    sameAnswer_of_bare (h.bare_answer hs)⟩
  refine ((hs.call a).call b).eq_of_ledger_eq ((hs.call b).call a) ?_
  calc ((s.call a).2.call b).2.ledger
      = ((s.ledger.call a).2.call b).2 := by rw [(hs.call a).ledger_call, hs.ledger_call]
    _ = ((s.ledger.call b).2.call a).2 := h.ledger_comm
    _ = ((s.call b).2.call a).2.ledger := by rw [(hs.call b).ledger_call, hs.ledger_call]

/-- A node that an edge leaves and enters is updated, and another edge is added at it. The update
shows the new edge in one order only. -/
theorem independent_calls_commute_of_shared_node :
    let s := empty.after [.addNode "a" "L" .empty, .addNode "b" "L" .empty,
      .addEdge ⟨"x", "a", "K", "a", .empty⟩]
    let update := Call.updateNode (.isolated "a" "M" .empty)
    let link := Call.addEdge ⟨"y", "b", "K", "a", .empty⟩
    s.Reachable ∧ s.Independent update link ∧
      s.after [update, link] = s.after [link, update] ∧
      update.SameAnswer (s.call update).1 ((s.call link).2.call update).1 ∧
      (s.call update).1.toOption ≠ ((s.call link).2.call update).1.toOption := by
  intro s update link
  have hs : s.Reachable := ⟨_, rfl⟩
  have h : s.Independent update link := by
    constructor <;> simp [update, link, Call.node?, Call.edge?, Spares]
  obtain ⟨same, alike, -⟩ := independent_calls_commute hs h
  exact ⟨hs, h, same, alike, by decide⟩

end Store

end PropertyGraph
