import PropertyGraph.Proofs.Query.Composition
import PropertyGraph.Proofs.Query.Meaning
import PropertyGraph.Proofs.Values.Payloads

/-!
# What filters cannot tell apart

Filters and patterns compare values by their encodings. Values of one kind have different
encodings, but a value may have the encoding of one of another kind: `Value.Mimics` lists all the
ways in which it can (`Value.encode_eq_iff`).

Two graphs *resemble* each other if they differ in values with the same encoding at most, and so do
two plans. Whatever is asked, resembling graphs give the same uids, and resembling plans ask the
same; while values with different encodings are told apart by a filter with a single requirement
(`Value.encodings_are_what_is_seen`).
-/

namespace PropertyGraph

open Query

/-! ## Values -/

namespace Value

/-- **A value that can be taken for one of another kind**, since it has its encoding: bytes for the
value that they encode, and a string for the number or truth value that it spells. -/
inductive Mimics : Value → Value → Prop
  /-- Bytes that hold an encoding. -/
  | encoding {v : Value} : Mimics (bytes v.encode) v
  /-- A number in canonical decimal form. -/
  | number {number : Int64} : Mimics (string (Decimal.text number)) (integer number)
  /-- A truth value in words. -/
  | truth {truth : Bool} : Mimics (string (truthText truth)) (boolean truth)

/-- Different values of one kind have different encodings. -/
theorem eq_of_encode_eq {v w : Value} (same : v.kind = w.kind) (h : v.encode = w.encode) :
    v = w := by
  have read := v.decodeAs_encode
  rw [h, same, w.decodeAs_encode] at read
  exact (Except.ok.inj read).symm

/-- No number is written like a truth value. -/
theorem encode_integer_ne_encode_boolean (number : Int64) (truth : Bool) :
    (integer number).encode ≠ (boolean truth).encode := by
  intro h
  have read := Decimal.int64?_text number
  rw [Utf8.ofString_inj.1 h] at read
  cases truth <;> nomatch read

/-- **Which values share their encoding.** -/
theorem encode_eq_iff {v w : Value} : v.encode = w.encode ↔ v = w ∨ v.Mimics w ∨ w.Mimics v := by
  constructor
  · intro h
    by_cases same : v.kind = w.kind
    · exact .inl (eq_of_encode_eq same h)
    · refine .inr ?_
      match v, w, h with
      | bytes _, w, rfl => exact .inl .encoding
      | v, bytes payload, h =>
        obtain rfl : payload = v.encode := h.symm
        exact .inr .encoding
      | string _, string _, _ => exact absurd rfl same
      | integer _, integer _, _ => exact absurd rfl same
      | boolean _, boolean _, _ => exact absurd rfl same
      | string _, integer _, h => exact .inl (Utf8.ofString_inj.1 h ▸ .number)
      | integer _, string _, h => exact .inr (Utf8.ofString_inj.1 h ▸ .number)
      | string _, boolean _, h => exact .inl (Utf8.ofString_inj.1 h ▸ .truth)
      | boolean _, string _, h => exact .inr (Utf8.ofString_inj.1 h ▸ .truth)
      | integer number, boolean truth, h =>
        exact absurd h (encode_integer_ne_encode_boolean number truth)
      | boolean truth, integer number, h =>
        exact absurd h.symm (encode_integer_ne_encode_boolean number truth)
  · rintro (rfl | (_ | _ | _) | (_ | _ | _)) <;> rfl

/-- Two values that look the same to filters. -/
def Resembles (v w : Value) : Prop := v.encode = w.encode

end Value

/-! ## Tables -/

namespace Table

variable {α β : Type} {R : α → β → Prop} {t : Table α} {u : Table β}

/-- Two tables with the same keys whose values are related key by key. -/
def Rel (R : α → β → Prop) (t : Table α) (u : Table β) : Prop :=
  ∀ key, Option.Rel R (t.get? key) (u.get? key)

namespace Rel

/-- What is found in the second table has a counterpart in the first. -/
theorem exists_left (h : Rel R t u) {key : String} {b : β} (hb : u.get? key = some b) :
    ∃ a, t.get? key = some a ∧ R a b := by
  have related := h key
  rw [hb] at related
  generalize t.get? key = found at related
  cases related with
  | some related => exact ⟨_, rfl, related⟩

/-- What is made of related values alike makes the same table of both. -/
theorem map_eq_map {γ : Type} (h : Rel R t u) {f : α → γ} {g : β → γ}
    (agree : ∀ {a b}, R a b → f a = g b) : t.map f = u.map g := by
  refine ext_get? fun key => ?_
  have related := h key
  rw [get?_map, get?_map]
  generalize t.get? key = a, u.get? key = b at related
  cases related with
  | none => rfl
  | some related => exact congrArg some (agree related)

/-- Related tables have the same keys. -/
theorem keys_eq (h : Rel R t u) : t.keys = u.keys := by
  rw [← keys_map t fun _ => (), h.map_eq_map fun _ => rfl, keys_map]

/-- They contain the same. -/
theorem contains_eq (h : Rel R t u) (key : String) : t.contains key = u.contains key := by
  rw [← contains_map t fun _ => (), h.map_eq_map fun _ => rfl, contains_map]

/-- Tests that agree on what is related keep related entries. -/
theorem filter (h : Rel R t u) {p : α → Bool} {q : β → Bool}
    (agree : ∀ {a b}, R a b → p a = q b) :
    Rel R (t.filter fun _ a => p a) (u.filter fun _ b => q b) := by
  intro key
  have related := h key
  rw [get?_filter, get?_filter]
  generalize t.get? key = a, u.get? key = b at related
  cases related with
  | none => exact .none
  | @some a b related =>
    rw [Option.filter_some, Option.filter_some, agree related]
    cases q b with
    | false => exact .none
    | true => exact .some related

/-- If values are related to themselves, so are tables. -/
theorem refl {R : α → α → Prop} (own : ∀ a, R a a) (t : Table α) : Rel R t t := by
  intro key
  cases t.get? key with
  | none => exact .none
  | some a => exact .some (own a)

/-- A table is related to itself with one value put in place of another. -/
theorem insert {R : α → α → Prop} (own : ∀ a, R a a) {key : String} {a b : α}
    (ha : t.get? key = some a) (related : R a b) : Rel R t (t.insert key b) := by
  intro other
  rw [get?_insert]
  split
  next same => rw [same, ha]; exact .some related
  next => exact refl own t other

end Rel

end Table

/-! ## Nodes, edges and graphs -/

/-- **Two property maps that look the same**: they have the same keys, and the same encoding under
each. -/
def PropertyMap.Resembles : PropertyMap → PropertyMap → Prop := Table.Rel Value.Resembles

/-- Two nodes that differ in their properties at most, and in these to no effect. -/
structure Node.Resembles (n m : Node) : Prop where
  /-- It is the same node. -/
  uid : n.uid = m.uid
  /-- The label is the same. -/
  label : n.label = m.label
  /-- The same edges are at the node. -/
  noted : ∀ role, n.noted role = m.noted role
  /-- The properties look the same. -/
  properties : PropertyMap.Resembles n.properties m.properties

/-- Two edges that differ in their properties at most, and in these to no effect. -/
structure Edge.Resembles (e e' : Edge) : Prop where
  /-- It is the same edge. -/
  uid : e.uid = e'.uid
  /-- The label is the same. -/
  label : e.label = e'.label
  /-- The edge is between the same nodes. -/
  nodeAt : ∀ role, e.nodeAt role = e'.nodeAt role
  /-- The properties look the same. -/
  properties : PropertyMap.Resembles e.properties e'.properties

/-- **Two graphs that differ in values of properties at most**, and only by values with the same
encoding. -/
structure Store.Resembles (s t : Store) : Prop where
  /-- Under each uid are nodes that resemble each other, or none. -/
  nodes : s.nodes.Rel Node.Resembles t.nodes
  /-- Under each uid are edges that resemble each other, or none. -/
  edges : s.edges.Rel Edge.Resembles t.edges

theorem PropertyMap.Resembles.refl (t : PropertyMap) : PropertyMap.Resembles t t :=
  Table.Rel.refl (R := Value.Resembles) (fun _ => rfl) t

theorem Node.Resembles.refl (n : Node) : n.Resembles n := ⟨rfl, rfl, fun _ => rfl, .refl _⟩

theorem Edge.Resembles.refl (e : Edge) : e.Resembles e := ⟨rfl, rfl, fun _ => rfl, .refl _⟩

/-- Putting one value in place of another with the same encoding. -/
theorem PropertyMap.Resembles.insert {t : PropertyMap} {key : String} {v w : Value}
    (hv : t.get? key = some v) (same : v.encode = w.encode) :
    PropertyMap.Resembles t (t.insert key w) :=
  Table.Rel.insert (R := Value.Resembles) (fun _ => rfl) hv same

namespace Filter

variable {f : Filter} {label : String} {t u : PropertyMap}

/-- Property maps that resemble each other match the same encodings. -/
theorem entryMatches_congr (h : PropertyMap.Resembles t u) (key : String)
    (encoding : List UInt8) : entryMatches t key encoding = entryMatches u key encoding := by
  have related := h key
  unfold entryMatches
  generalize t.get? key = x, u.get? key = y at related
  cases related with
  | none => rfl
  | @some v w same =>
    show decide (v.encode = encoding) = decide (w.encode = encoding)
    rw [same]

/-- A filter sees no more of properties than their encodings. -/
theorem accepts_congr (h : PropertyMap.Resembles t u) :
    f.accepts label t = f.accepts label u := by
  simp only [accepts, entryMatches_congr h]

/-- It accepts both of two nodes that resemble each other, or neither. -/
theorem acceptsNode_congr {n m : Node} (h : n.Resembles m) : f.acceptsNode n = f.acceptsNode m := by
  rw [acceptsNode, acceptsNode, h.label, accepts_congr h.properties]

/-- So it does with edges. -/
theorem acceptsEdge_congr {e e' : Edge} (h : e.Resembles e') :
    f.acceptsEdge e = f.acceptsEdge e' := by
  rw [acceptsEdge, acceptsEdge, h.label, accepts_congr h.properties]

/-- A single requirement, asked of a property map with a value under that key. -/
theorem accepts_all_withProperty_insert {key : String} {v w : Value} :
    (all.withProperty key v).accepts label (t.insert key w) ↔ w.encode = v.encode := by
  have required : (all.withProperty key v).properties.toList = [(key, v.encode)] := rfl
  have there : (t.insert key w).get? key = some w := by rw [Table.get?_insert, if_pos rfl]
  show (true && _) = true ↔ _
  rw [required, List.all_cons, List.all_nil, Bool.and_true, Bool.true_and, entryMatches_iff, there]
  simp

end Filter

namespace Store

variable {s t : Store}

/-- The nodes that a filter selects are listed by ascending uid. -/
theorem Consistent.uids_nodesBy (h : s.Consistent) (f : Filter) :
    (s.nodesBy f).map (·.uid) = (s.nodes.filter fun _ n => f.acceptsNode n).keys :=
  Table.map_filter_values h.uid_node

/-- So are the edges. -/
theorem Consistent.uids_edgesBy (h : s.Consistent) (f : Filter) :
    (s.edgesBy f).map (·.uid) = (s.edges.filter fun _ e => f.acceptsEdge e).keys :=
  Table.map_filter_values h.uid_edge

namespace Resembles

/-- Putting a value in place of one with the same encoding at a node. -/
theorem setNodeProperty {u key : String} {n : Node} {v w : Value} (hn : s.nodes.get? u = some n)
    (hv : n.properties.get? key = some v) (same : v.encode = w.encode) :
    s.Resembles { s with nodes := s.nodes.insert u (n.setProperty key w) } where
  nodes := .insert Node.Resembles.refl hn ⟨rfl, rfl, fun _ => rfl, .insert hv same⟩
  edges := .refl Edge.Resembles.refl s.edges

/-- Putting a value in place of one with the same encoding at an edge. -/
theorem setEdgeProperty {x key : String} {e : Edge} {v w : Value} (he : s.edges.get? x = some e)
    (hv : e.properties.get? key = some v) (same : v.encode = w.encode) :
    s.Resembles { s with edges := s.edges.insert x (e.setProperty key w) } where
  nodes := .refl Node.Resembles.refl s.nodes
  edges := .insert Edge.Resembles.refl he ⟨rfl, rfl, fun _ => rfl, .insert hv same⟩

variable (h : s.Resembles t)
include h

/-- Which edges are at a node is the same in both graphs. -/
theorem exists_edge_iff {x u : String} {role : Endpoint} :
    (∃ e, s.edges.get? x = some e ∧ e.nodeAt role = u) ↔
      ∃ e, t.edges.get? x = some e ∧ e.nodeAt role = u := by
  have related := h.edges x
  generalize s.edges.get? x = x, t.edges.get? x = y at related
  cases related with
  | none => exact Iff.rfl
  | some same => simp [same.nodeAt]

/-- A graph that resembles a consistent one is consistent, since they note the same adjacency. -/
theorem consistent (hs : s.Consistent) : t.Consistent where
  uid_node hm := by
    obtain ⟨n, hn, same⟩ := h.nodes.exists_left hm
    rw [← same.uid, hs.uid_node hn]
  uid_edge he' := by
    obtain ⟨e, he, same⟩ := h.edges.exists_left he'
    rw [← same.uid, hs.uid_edge he]
  hasNode_nodeAt role he' := by
    obtain ⟨e, he, same⟩ := h.edges.exists_left he'
    rw [hasNode, ← h.nodes.contains_eq, ← same.nodeAt]
    exact hs.hasNode_nodeAt role he
  mem_noted role x hm := by
    obtain ⟨n, hn, same⟩ := h.nodes.exists_left hm
    rw [← same.noted, hs.mem_noted role hn, h.exists_edge_iff]

/-- A filter selects the same nodes from both graphs. -/
theorem uids_nodesBy (hs : s.Consistent) (f : Filter) :
    (s.nodesBy f).map (·.uid) = (t.nodesBy f).map (·.uid) := by
  rw [hs.uids_nodesBy, (h.consistent hs).uids_nodesBy]
  exact (h.nodes.filter Filter.acceptsNode_congr).keys_eq

/-- It selects the same edges. -/
theorem uids_edgesBy (hs : s.Consistent) (f : Filter) :
    (s.edgesBy f).map (·.uid) = (t.edgesBy f).map (·.uid) := by
  rw [hs.uids_edgesBy, (h.consistent hs).uids_edgesBy]
  exact (h.edges.filter Filter.acceptsEdge_congr).keys_eq

end Resembles

end Store

/-! ## Plans -/

namespace Query

/-- Two patterns that differ in the values of their properties at most, and in these to no
effect; the variables that they bind have no part in what is selected. -/
structure Pattern.Resembles (x y : Pattern) : Prop where
  /-- The same labels will do. -/
  labels : x.labels = y.labels
  /-- The required properties look the same. -/
  properties : PropertyMap.Resembles x.properties y.properties

/-- **Two plans that ask the same**, pattern by pattern. -/
def Plan.Resembles (p q : Plan) : Prop :=
  List.Forall₂ (fun c d => List.Forall₂ Pattern.Resembles c.patterns d.patterns)
    p.clauses q.clauses

/-- Patterns that resemble each other make the same filter. -/
theorem Pattern.Resembles.filter_eq {x y : Pattern} (h : x.Resembles y) : x.filter = y.filter := by
  rw [filter, filter, encoded, encoded, h.labels, h.properties.map_eq_map id]

/-- Plans that do make the same filters. -/
theorem Plan.Resembles.filters_eq {p q : Plan} (h : p.Resembles q) : p.filters = q.filters := by
  have patterns : List.Forall₂ Pattern.Resembles p.patterns q.patterns :=
    List.rel_flatMap h fun _ _ same => same
  exact forall₂_eq_iff.1 (patterns.imp fun _ _ same => same.filter_eq)

/-- A plan selects both of two nodes that resemble each other, or neither. -/
theorem Plan.accepts_congr_of_resembles {p : Plan} {n m : Node} (h : n.Resembles m) :
    p.accepts n = p.accepts m := by
  simp only [Plan.accepts, Filter.acceptsNode_congr h]

/-- Plans that ask the same of graphs that look the same give nodes with the same uids. -/
theorem Plan.Resembles.execute {p q : Plan} (h : p.Resembles q) {s t : Store}
    (same : s.Resembles t) (hs : s.Consistent) :
    ∃ a b, p.execute s = .ok a ∧ q.execute t = .ok b ∧ a.nodes.keys = b.nodes.keys := by
  refine ⟨_, _, execute_eq_selected hs p, execute_eq_selected (same.consistent hs) q, ?_⟩
  have asked : q.accepts = p.accepts := by
    funext n
    rw [accepts, accepts, h.filters_eq]
  rw [Store.selected, Store.selected, Table.keys_map, Table.keys_map, asked]
  exact (same.nodes.filter Plan.accepts_congr_of_resembles).keys_eq

end Query

/-! ## What is seen -/

/-- **Filters and queries see the encodings of values, and nothing else of them.**

Two values have one encoding exactly if they are the same or one mimics the other; never a number
and a truth value, nor two values of one kind. A graph with a value in place of another with the
same encoding, at a node or at an edge, resembles the graph that it was. Graphs that resemble each
other give nodes and edges with the same uids for any filter, and nodes with the same uids for plans
that resemble each other; and a filter is the same whichever of two values with one encoding it is
built from.

Of two values with different encodings, however, a filter that requires one under some key, and
nothing else, selects every node and every edge that has this one there, and none that has the
other. -/
theorem Value.encodings_are_what_is_seen :
    (∀ v w : Value, v.encode = w.encode ↔ v = w ∨ v.Mimics w ∨ w.Mimics v) ∧
    (∀ number truth, (integer number).encode ≠ (boolean truth).encode) ∧
    (∀ v w : Value, v.kind = w.kind → v ≠ w → v.encode ≠ w.encode) ∧
    (∀ (s : Store) (key : String) (v w : Value), v.encode = w.encode →
      (∀ u n, s.nodes.get? u = some n → n.properties.get? key = some v →
        s.Resembles { s with nodes := s.nodes.insert u (n.setProperty key w) }) ∧
      ∀ x e, s.edges.get? x = some e → e.properties.get? key = some v →
        s.Resembles { s with edges := s.edges.insert x (e.setProperty key w) }) ∧
    (∀ s t : Store, s.Reachable → s.Resembles t →
      (∀ f, (s.nodesBy f).map (·.uid) = (t.nodesBy f).map (·.uid)) ∧
      (∀ f, (s.edgesBy f).map (·.uid) = (t.edgesBy f).map (·.uid)) ∧
      ∀ p q : Plan, p.Resembles q → ∃ a b, p.execute s = .ok a ∧ q.execute t = .ok b ∧
        a.nodes.keys = b.nodes.keys) ∧
    (∀ (f : Filter) (key : String) (v w : Value), v.encode = w.encode →
      f.withProperty key v = f.withProperty key w) ∧
    ∀ (key : String) (v w : Value), v.encode ≠ w.encode →
      (∀ n : Node, (Filter.all.withProperty key v).acceptsNode (n.setProperty key v) ∧
        ¬(Filter.all.withProperty key v).acceptsNode (n.setProperty key w)) ∧
      ∀ e : Edge, (Filter.all.withProperty key v).acceptsEdge (e.setProperty key v) ∧
        ¬(Filter.all.withProperty key v).acceptsEdge (e.setProperty key w) := by
  refine ⟨fun _ _ => encode_eq_iff, encode_integer_ne_encode_boolean,
    fun v w kind different same => different (eq_of_encode_eq kind same),
    fun s key v w same => ⟨fun u n => ?_, fun x e => ?_⟩,
    fun s t hs same => ⟨same.uids_nodesBy hs.consistent, same.uids_edgesBy hs.consistent,
      fun p q asked => asked.execute same hs.consistent⟩,
    fun f key v w same => congrArg (f.withEncoded key) same,
    fun key v w different => ⟨fun n => ⟨?_, ?_⟩, fun e => ⟨?_, ?_⟩⟩⟩
  · exact fun hn hv => .setNodeProperty hn hv same
  · exact fun he hv => .setEdgeProperty he hv same
  · exact Filter.accepts_all_withProperty_insert.2 rfl
  · exact fun selected => different (Filter.accepts_all_withProperty_insert.1 selected).symm
  · exact Filter.accepts_all_withProperty_insert.2 rfl
  · exact fun selected => different (Filter.accepts_all_withProperty_insert.1 selected).symm

/-- The number seven, stored as its one byte and asked for as a text. -/
theorem Value.encodings_are_what_is_seen_of_seven :
    let s := Store.empty.after [.addNode "a" "L" (Table.empty.insert "k" (.integer 7)),
      .addNode "b" "L" (Table.empty.insert "k" (.integer 8))]
    let n := Node.isolated "a" "L" (Table.empty.insert "k" (.integer 7))
    let t : Store := { s with nodes := s.nodes.insert "a" (n.setProperty "k" (.bytes [0x37])) }
    let p : Plan := ⟨[⟨[⟨"n", ["L"], Table.empty.insert "k" (.integer 7)⟩]⟩], .ofList ["n"]⟩
    let q : Plan := ⟨[⟨[⟨"m", ["L"], Table.empty.insert "k" (.string "7")⟩]⟩], .ofList ["m"]⟩
    s.Reachable ∧ s ≠ t ∧ s.Resembles t ∧ p.Resembles q ∧
      (∃ a b, p.execute s = .ok a ∧ q.execute t = .ok b ∧ a.nodes.keys = b.nodes.keys) ∧
      ∀ n : Node, ¬(Filter.all.withProperty "k" (.integer 7)).acceptsNode
        (n.setProperty "k" (.integer 8)) := by
  intro s n t p q
  obtain ⟨-, -, kind, replaced, seen, -, told⟩ := encodings_are_what_is_seen
  have byte : (integer 7).encode = (bytes [0x37]).encode := by decide +kernel
  have reachable : s.Reachable := ⟨_, rfl⟩
  have like : s.Resembles t := (replaced s "k" _ _ byte).1 "a" n (by decide +kernel) rfl
  have swapped : Table.empty.insert "k" (string "7") =
      (Table.empty.insert "k" (integer 7)).insert "k" (string "7") := by decide +kernel
  have asked : p.Resembles q := by
    refine .cons (.cons ⟨rfl, ?_⟩ .nil) .nil
    show PropertyMap.Resembles _ (Table.empty.insert "k" (.string "7"))
    rw [swapped]
    exact .insert (v := integer 7) (by decide +kernel) (by decide +kernel)
  refine ⟨reachable, by decide +kernel, like, asked, (seen s t reachable like).2.2 p q asked, ?_⟩
  exact fun n => ((told "k" _ _ (kind (.integer 7) (.integer 8) rfl (by decide))).1 n).2

end PropertyGraph
