import PropertyGraph.Proofs.Query.Answers

/-!
# Queries one after the other and side by side

The answer to a plan is a graph that can be asked again. On a consistent graph executing a plan is
selecting nodes by a test (`execute_eq_selected`), and the test sees the label and the properties
of a node only, which the copy of a node keeps. So plans that are executed one after the other
select by both tests, and the clauses of two plans side by side by either.

How patterns are grouped, ordered and repeated has no part in the test; a further required property
makes it stricter. `execute_composes` puts this together.
-/

namespace PropertyGraph

/-! ## Selections -/

/-- A node without its adjacency. -/
def Node.bare (n : Node) : Node := .isolated n.uid n.label n.properties

namespace Store

/-- Bare copies of the nodes that a test accepts. -/
def selected (s : Store) (accepts : Node → Bool) : Store where
  nodes := (s.nodes.filter fun _ n => accepts n).map Node.bare
  edges := .empty

variable {s : Store} {p q : Node → Bool} {u : String} {m : Node}

theorem get?_selected (s : Store) (accepts : Node → Bool) (u : String) :
    (s.selected accepts).nodes.get? u = ((s.nodes.get? u).filter accepts).map Node.bare := by
  show ((s.nodes.filter fun _ n => accepts n).map Node.bare).get? u = _
  rw [Table.get?_map, Table.get?_filter]

/-- A selected node is a copy, without its edges, of one that is accepted. -/
theorem get?_selected_eq_some_iff : (s.selected p).nodes.get? u = some m ↔
    ∃ n, s.nodes.get? u = some n ∧ p n ∧ m = n.bare := by
  rw [get?_selected]
  simp only [Option.map_eq_some_iff, Option.filter_eq_some_iff, and_assoc]
  exact exists_congr fun n => and_congr_right fun _ => and_congr_right fun _ => eq_comm

/-- Selecting twice is selecting by both tests, if the second does not look at adjacency. -/
theorem selected_selected (blind : ∀ n : Node, q n.bare = q n) :
    (s.selected p).selected q = s.selected fun n => p n && q n := by
  refine ext_get? (fun u => ?_) (fun _ => rfl)
  rw [get?_selected, get?_selected, get?_selected]
  cases s.nodes.get? u with
  | none => rfl
  | some n =>
    rw [Option.filter_some, Option.filter_some]
    cases kept : p n with
    | false => rfl
    | true =>
      show ((some n.bare).filter q).map Node.bare = _
      rw [Option.filter_some, blind]
      cases q n <;> rfl

/-- Selecting by either of two tests is the union of the selections. -/
theorem get?_selected_or : (s.selected fun n => p n || q n).nodes.get? u = some m ↔
    (s.selected p).nodes.get? u = some m ∨ (s.selected q).nodes.get? u = some m := by
  simp only [get?_selected_eq_some_iff, Bool.or_eq_true, or_and_right, and_or_left, exists_or]

/-- A stricter test selects less. -/
theorem selected_mono (stricter : ∀ n, p n → q n) (hm : (s.selected p).nodes.get? u = some m) :
    (s.selected q).nodes.get? u = some m := by
  obtain ⟨n, hn, accepted, rfl⟩ := get?_selected_eq_some_iff.1 hm
  exact get?_selected_eq_some_iff.2 ⟨n, hn, stricter n accepted, rfl⟩

end Store

namespace Query

/-! ## The test of a plan -/

/-- A further required property makes a pattern stricter. -/
theorem Pattern.Matches.of_insert {x : Pattern} {k : String} {v : Value} {n : Node}
    (fresh : x.properties.get? k = none)
    (h : Pattern.Matches { x with properties := x.properties.insert k v } n) : x.Matches n where
  label := h.label
  property key value required := by
    refine h.property key value ?_
    have other : key ≠ k := fun eq => by
      rw [eq, fresh] at required
      nomatch required
    show (x.properties.insert k v).get? key = some value
    rw [Table.get?_insert, if_neg other, required]

namespace Plan

/-- Whether some filter of a plan selects a node. -/
def accepts (p : Plan) (n : Node) : Bool := p.filters.any (·.acceptsNode n)

/-- What a plan asks of a node depends on its patterns only, as a set. -/
theorem matches_iff {p : Plan} {n : Node} : p.Matches n ↔ ∃ x ∈ p.patterns, x.Matches n := by
  simp only [Matches, patterns, List.mem_flatMap]
  constructor
  · rintro ⟨c, hc, x, hx, h⟩
    exact ⟨x, ⟨c, hc, hx⟩, h⟩
  · rintro ⟨x, ⟨c, hc, hx⟩, h⟩
    exact ⟨c, hc, x, hx, h⟩

theorem accepts_iff {p : Plan} {n : Node} : p.accepts n ↔ p.Matches n := any_acceptsNode_filters

/-- The test sees label and properties only. -/
theorem accepts_bare (p : Plan) (n : Node) : p.accepts n.bare = p.accepts n := rfl

/-- Clauses side by side accept what either does. -/
theorem accepts_append (p q : Plan) (returns : Distinct) :
    accepts ⟨p.clauses ++ q.clauses, returns⟩ = fun n => p.accepts n || q.accepts n := by
  funext n
  simp only [accepts, filters, patterns, List.flatMap_append, List.map_append, List.any_append]

/-- **Executing a plan is selecting by its test.** -/
theorem execute_eq_selected {s : Store} (h : s.Consistent) (p : Plan) :
    p.execute s = .ok (s.selected p.accepts) := by
  obtain ⟨r, ok, edges, nodes⟩ := execute_eq_ok p s
  rw [ok]
  refine congrArg _ (Store.ext_get? (fun u => ?_) (fun x => by rw [edges]; rfl))
  rw [nodes h, Store.get?_selected]
  show ((s.nodes.get? u).filter p.accepts).map _ = _
  cases hn : s.nodes.get? u with
  | none => rfl
  | some n =>
    obtain rfl := h.uid_node hn
    cases kept : p.accepts n <;> simp [Option.filter_some, kept, Node.bare]

variable {s : Store}

/-- A plan asked of an answer selects by both tests. -/
theorem execute_selected (h : s.Consistent) (p q : Plan) :
    q.execute (s.selected p.accepts) = .ok (s.selected fun n => p.accepts n && q.accepts n) := by
  have answer := (Store.Reachable.execute (execute_eq_selected h p)).consistent
  rw [execute_eq_selected answer, Store.selected_selected q.accepts_bare]

/-- The test of a plan is that of any other with the same patterns. -/
theorem accepts_congr {p p' : Plan} (same : ∀ x, x ∈ p'.patterns ↔ x ∈ p.patterns) :
    p'.accepts = p.accepts := by
  funext n
  rw [Bool.eq_iff_iff, accepts_iff, accepts_iff, matches_iff, matches_iff]
  simp only [same]

/-- One pattern of a plan and the others. -/
theorem mem_patterns_cut {front back : List Clause} {before behind : List Pattern} {x z : Pattern}
    {returns : Distinct} :
    z ∈ patterns ⟨front ++ ⟨before ++ x :: behind⟩ :: back, returns⟩ ↔
      z = x ∨ z ∈ patterns ⟨front ++ ⟨before ++ behind⟩ :: back, returns⟩ := by
  simp only [patterns, List.flatMap_append, List.flatMap_cons, List.mem_append, List.mem_cons]
  grind

/-- A plan one of whose patterns becomes stricter becomes stricter. -/
theorem Matches.of_stricter {front back : List Clause} {before behind : List Pattern}
    {x y : Pattern} {n : Node} {returns : Distinct} (stricter : y.Matches n → x.Matches n)
    (h : Matches ⟨front ++ ⟨before ++ y :: behind⟩ :: back, returns⟩ n) :
    Matches ⟨front ++ ⟨before ++ x :: behind⟩ :: back, returns⟩ n := by
  rw [matches_iff] at h ⊢
  obtain ⟨z, hz, matched⟩ := h
  rcases mem_patterns_cut.1 hz with rfl | other
  · exact ⟨x, mem_patterns_cut.2 (.inl rfl), stricter matched⟩
  · exact ⟨z, mem_patterns_cut.2 (.inr other), matched⟩

/-! ## The laws -/

/-- **How queries compose.** Let a graph be made by any calls, and execute two plans on it, which
never fails. Each plan executed on the answer to the other gives one graph, bare copies of the nodes
that match both plans; a plan executed on its own answer gives that answer; and the clauses of both
plans side by side give the union of the answers. A plan with the same patterns, in whatever order
and grouping and however often, has the same answer, and so no order, grouping or repetition of
clauses counts. A further required property on one of the patterns takes nodes away at most. -/
theorem execute_composes (hs : s.Reachable) (p q : Plan) :
    ∃ a b, p.execute s = .ok a ∧ q.execute s = .ok b ∧
      (∃ c, q.execute a = .ok c ∧ p.execute b = .ok c ∧ c.edges = .empty ∧
        ∀ u m, c.nodes.get? u = some m ↔ ∃ n, s.nodes.get? u = some n ∧
          p.Matches n ∧ q.Matches n ∧ m = .isolated u n.label n.properties) ∧
      p.execute a = .ok a ∧
      (∀ returns, ∃ d, execute ⟨p.clauses ++ q.clauses, returns⟩ s = .ok d ∧ d.edges = .empty ∧
        ∀ u m, d.nodes.get? u = some m ↔ a.nodes.get? u = some m ∨ b.nodes.get? u = some m) ∧
      (∀ p' : Plan, (∀ x, x ∈ p'.patterns ↔ x ∈ p.patterns) → p'.execute s = .ok a) ∧
      ∀ front before x behind back k v, p.clauses = front ++ ⟨before ++ x :: behind⟩ :: back →
        x.properties.get? k = none → ∃ r, execute ⟨front ++
          ⟨before ++ { x with properties := x.properties.insert k v } :: behind⟩ :: back,
          p.returns⟩ s = .ok r ∧ r.edges = .empty ∧
          ∀ u m, r.nodes.get? u = some m → a.nodes.get? u = some m := by
  have h := hs.consistent
  refine ⟨_, _, execute_eq_selected h p, execute_eq_selected h q,
    ⟨_, execute_selected h p q, ?_, rfl, fun u m => ?_⟩, ?_, fun returns => ?_,
    fun p' same => ?_, fun front before x behind back k v cut fresh => ?_⟩
  · rw [execute_selected h q p]
    simp only [Bool.and_comm]
  · simp only [Store.get?_selected_eq_some_iff, Bool.and_eq_true, accepts_iff, and_assoc]
    refine exists_congr fun n => and_congr_right fun hn => ?_
    obtain rfl := h.uid_node hn
    rfl
  · rw [execute_selected h p p]
    simp only [Bool.and_self]
  · refine ⟨_, execute_eq_selected h _, rfl, fun u m => ?_⟩
    rw [accepts_append]
    exact Store.get?_selected_or
  · rw [execute_eq_selected h, accepts_congr same]
  · refine ⟨_, execute_eq_selected h _, rfl, fun u m => Store.selected_mono fun n accepted => ?_⟩
    obtain ⟨clauses, returns⟩ := p
    obtain rfl : clauses = _ := cut
    rw [accepts_iff] at accepted ⊢
    exact accepted.of_stricter (.of_insert fresh)

/-- Two plans that share a node on a graph with an edge and a node that neither selects. -/
theorem execute_composes_of_overlap :
    let s := Store.empty.after [.addNode "a" "L" (Table.empty.insert "k" (.integer 7)),
      .addNode "b" "L" .empty, .addNode "c" "M" .empty, .addEdge ⟨"e", "a", "K", "b", .empty⟩]
    let p : Plan := ⟨[⟨[⟨"n", ["L"], .empty⟩]⟩], .ofList ["n"]⟩
    let q : Plan := ⟨[⟨[⟨"m", [], Table.empty.insert "k" (.string "7")⟩]⟩], .ofList ["m"]⟩
    s.Reachable ∧ ∃ a b c, p.execute s = .ok a ∧ q.execute s = .ok b ∧ q.execute a = .ok c ∧
      p.execute b = .ok c ∧ p.execute a = .ok a ∧ execute ⟨p.clauses ++ p.clauses, p.returns⟩ s =
        .ok a := by
  intro s p q
  have reachable : s.Reachable := ⟨_, rfl⟩
  obtain ⟨a, b, ha, hb, ⟨c, hqa, hpb, -⟩, again, -, same, -⟩ := execute_composes reachable p q
  exact ⟨reachable, a, b, c, ha, hb, hqa, hpb, again, same _ fun x => by simp [p, patterns]⟩

end Plan

end Query

end PropertyGraph
