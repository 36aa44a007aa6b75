import PropertyGraph.Proofs.Graph.Consistency

/-!
# What the answer to a plan holds

`Pattern.Matches` says of a node what a pattern asks of it, without filters and without going
through anything. The answer to a plan is found by going through all nodes with a set of uids
already seen; it cannot fail (`gather_eq_ok`), and it holds a bare copy of each node that some
pattern matches and nothing else (`execute_answers`).
-/

namespace PropertyGraph.Query

/-! ## What a plan asks for -/

/-- **What a pattern asks of a node**: one of its labels, if it names any, and under each of its
keys a value with the canonical encoding of the value it gives. -/
structure Pattern.Matches (q : Pattern) (n : Node) : Prop where
  /-- The node carries a label that will do. -/
  label : q.labels = [] ∨ n.label ∈ q.labels
  /-- The node has every required property. -/
  property : ∀ key value, q.properties.get? key = some value →
    ∃ held, n.properties.get? key = some held ∧ held.encode = value.encode

/-- **What a plan asks of a node**: some pattern of some clause matches it. -/
def Plan.Matches (p : Plan) (n : Node) : Prop := ∃ c ∈ p.clauses, ∃ q ∈ c.patterns, q.Matches n

/-- **What the answer to a plan is**: the graph `r` against the graph `s` that was asked. -/
structure Plan.Answers (p : Plan) (s r : Store) : Prop where
  /-- The answer holds no edge. -/
  edges_eq : r.edges = .empty
  /-- The answer holds the matching nodes with uid, label and all properties, and without
  adjacency. -/
  mem_iff : ∀ u m, r.nodes.get? u = some m ↔
    ∃ n, s.nodes.get? u = some n ∧ p.Matches n ∧ m = .isolated u n.label n.properties
  /-- No node is copied twice. -/
  once : (r.nodes.values.map (·.uid)).Nodup
  /-- The answer is the union of what the filters of the patterns select. -/
  union : ∀ u, r.hasNode u ↔ ∃ q ∈ p.patterns, ∃ n ∈ s.nodesBy q.filter, n.uid = u

/-- The filter of a pattern accepts what matches the pattern. -/
theorem Pattern.acceptsNode_filter {q : Pattern} {n : Node} :
    q.filter.acceptsNode n ↔ q.Matches n := by
  have property : (∀ key encoding, q.encoded.get? key = some encoding →
      ∃ held, n.properties.get? key = some held ∧ held.encode = encoding) ↔
      ∀ key value, q.properties.get? key = some value →
        ∃ held, n.properties.get? key = some held ∧ held.encode = value.encode := by
    simp only [Pattern.encoded, Table.get?_map, Option.map_eq_some_iff, forall_exists_index,
      and_imp, forall_apply_eq_imp_iff₂]
  rw [Filter.acceptsNode, Filter.accepts_iff]
  show (_ ∧ ∀ key encoding, q.encoded.get? key = some encoding → _) ↔ _
  rw [property]
  exact ⟨fun ⟨label, property⟩ => ⟨label, property⟩, fun h => ⟨h.label, h.property⟩⟩

namespace Plan

/-- A node is accepted by some filter of a plan exactly if it matches some pattern. -/
theorem any_acceptsNode_filters {p : Plan} {n : Node} :
    p.filters.any (·.acceptsNode n) ↔ p.Matches n := by
  simp only [filters, patterns, List.any_eq_true, List.mem_map, List.mem_flatMap, Matches]
  constructor
  · rintro ⟨f, ⟨q, ⟨c, hc, hq⟩, rfl⟩, accepted⟩
    exact ⟨c, hc, q, hq, Pattern.acceptsNode_filter.1 accepted⟩
  · rintro ⟨c, hc, q, hq, matched⟩
    exact ⟨q.filter, ⟨q, ⟨c, hc, hq⟩, rfl⟩, Pattern.acceptsNode_filter.2 matched⟩

/-! ## Going through the nodes -/

/-- **Copying cannot fail**, since a uid that has been seen is passed over. Of several nodes with
one uid the first that is selected is copied. -/
theorem gather_eq_ok (filters : List Filter) (seen : TextSet) (result : Store) (nodes : List Node)
    (inv : ∀ u, seen.contains u = result.hasNode u) :
    ∃ r, gather filters seen result nodes = .ok r ∧ r.edges = result.edges ∧
      ∀ u, r.nodes.get? u = (result.nodes.get? u).or
        ((nodes.find? fun n => n.uid = u && filters.any (·.acceptsNode n)).map fun n =>
          .isolated u n.label n.properties) := by
  induction nodes generalizing seen result with
  | nil => exact ⟨result, rfl, rfl, fun u => (Option.or_none).symm⟩
  | cons n rest ih =>
    rw [gather]
    split
    next old =>
      obtain ⟨r, ok, edges, nodes⟩ := ih _ _ inv
      refine ⟨r, ok, edges, fun u => ?_⟩
      rw [nodes]
      by_cases eq : n.uid = u
      · rw [inv, eq] at old
        obtain ⟨m, hm⟩ := Store.hasNode_iff.1 old
        rw [hm, Option.some_or, Option.some_or]
      · rw [List.find?_cons_of_neg (by simp [eq])]
    next new =>
      have absent : result.nodes.get? n.uid = none := by
        rw [inv] at new
        exact Table.contains_eq_false_iff.1 (Bool.eq_false_iff.2 new)
      split
      next accepted =>
        let copy := Node.isolated n.uid n.label n.properties
        have inv' : ∀ u, (seen.add n.uid).contains u =
            Store.hasNode { result with nodes := result.nodes.insert n.uid copy } u := fun u => by
          rw [Table.contains, Store.hasNode, Table.contains, Table.get?_insert, Table.get?_insert]
          split
          · rfl
          · exact inv u
        rw [Store.addNode_eq_ok_iff.2 ⟨absent, rfl, rfl⟩]
        obtain ⟨r, ok, edges, nodes⟩ := ih _ _ inv'
        refine ⟨r, ok, edges, fun u => ?_⟩
        rw [nodes, Table.get?_insert]
        by_cases eq : n.uid = u
        · subst eq
          rw [if_pos rfl, absent, List.find?_cons_of_pos (by simp [accepted])]
          rfl
        · rw [if_neg (Ne.symm eq), List.find?_cons_of_neg (by simp [eq])]
      next refused =>
        obtain ⟨r, ok, edges, nodes⟩ := ih _ _ inv
        refine ⟨r, ok, edges, fun u => ?_⟩
        rw [nodes, List.find?_cons_of_neg (by simp [refused])]

/-! ## The answer -/

variable {s : Store}

/-- A search for what a list holds once at most finds it wherever it stands. -/
theorem find?_eq_some_iff_of_unique {l : List Node} {fits : Node → Bool} {n : Node}
    (unique : ∀ a ∈ l, ∀ b ∈ l, fits a → fits b → a = b) :
    l.find? fits = some n ↔ n ∈ l ∧ fits n := by
  constructor
  · exact fun found => ⟨List.mem_of_find?_eq_some found, List.find?_some found⟩
  · rintro ⟨mem, fit⟩
    obtain ⟨m, found⟩ := Option.isSome_iff_exists.1 (List.find?_isSome.2 ⟨n, mem, fit⟩)
    rw [found, unique m (List.mem_of_find?_eq_some found) n mem (List.find?_some found) fit]

/-- In a consistent graph, going through the nodes for one with a uid is looking it up. -/
theorem find?_values (h : s.Consistent) (u : String) (accepted : Node → Bool) :
    s.nodes.values.find? (fun n => n.uid = u && accepted n) =
      (s.nodes.get? u).filter accepted := by
  have filed : ∀ n, n ∈ s.nodes.values ∧ n.uid = u ↔ s.nodes.get? u = some n :=
    fun n => Table.mem_values_and_iff h.uid_node
  refine Option.ext fun n => ?_
  rw [find?_eq_some_iff_of_unique, Option.filter_eq_some_iff, ← filed, Bool.and_eq_true,
    decide_eq_true_iff, and_assoc]
  intro a ha b hb fa fb
  simp only [Bool.and_eq_true, decide_eq_true_eq] at fa fb
  exact Option.some.inj (((filed a).1 ⟨ha, fa.1⟩).symm.trans ((filed b).1 ⟨hb, fb.1⟩))

/-- Executing a plan succeeds on every graph; on a consistent one it copies the node under each
uid that is selected. -/
theorem execute_eq_ok (p : Plan) (s : Store) :
    ∃ r, p.execute s = .ok r ∧ r.edges = .empty ∧ (s.Consistent → ∀ u, r.nodes.get? u =
      ((s.nodes.get? u).filter fun n => p.filters.any (·.acceptsNode n)).map fun n =>
        .isolated u n.label n.properties) := by
  unfold execute
  cases filters : p.filters with
  | nil =>
    refine ⟨.empty, rfl, rfl, fun _ u => ?_⟩
    cases s.nodes.get? u <;> rfl
  | cons f rest =>
    obtain ⟨r, ok, edges, nodes⟩ := gather_eq_ok (f :: rest) .empty .empty s.nodes.values
      fun u => rfl
    refine ⟨r, ok, edges, fun h u => ?_⟩
    rw [nodes, find?_values h]
    rfl

/-- An answer has the uids that are selected by the pattern filters one by one. -/
theorem hasNode_iff_of_mem_iff {p : Plan} {r : Store}
    (mem_iff : ∀ u m, r.nodes.get? u = some m ↔
      ∃ n, s.nodes.get? u = some n ∧ p.Matches n ∧ m = .isolated u n.label n.properties)
    (h : s.Consistent) (u : String) :
    r.hasNode u ↔ ∃ q ∈ p.patterns, ∃ n ∈ s.nodesBy q.filter, n.uid = u := by
  simp only [Store.hasNode_iff, mem_iff, Matches, patterns, List.mem_flatMap, Store.nodesBy,
    List.mem_filter, Table.mem_values_iff, Pattern.acceptsNode_filter]
  constructor
  · rintro ⟨_, n, hn, ⟨c, hc, q, hq, matched⟩, rfl⟩
    exact ⟨q, ⟨c, hc, hq⟩, n, ⟨⟨u, hn⟩, matched⟩, h.uid_node hn⟩
  · rintro ⟨q, ⟨c, hc, hq⟩, n, ⟨⟨v, hn⟩, matched⟩, rfl⟩
    rw [h.uid_node hn]
    exact ⟨_, n, hn, ⟨c, hc, q, hq, matched⟩, rfl⟩

theorem answers_of_execute {p : Plan} {r : Store} (h : s.Consistent)
    (ok : p.execute s = .ok r) : p.Answers s r := by
  obtain ⟨r', ok', edges, nodes⟩ := execute_eq_ok p s
  obtain rfl : r' = r := Except.ok.inj (ok'.symm.trans ok)
  have mem_iff : ∀ u m, r'.nodes.get? u = some m ↔
      ∃ n, s.nodes.get? u = some n ∧ p.Matches n ∧ m = .isolated u n.label n.properties := by
    intro u m
    rw [nodes h]
    simp only [Option.map_eq_some_iff, Option.filter_eq_some_iff, any_acceptsNode_filters,
      and_assoc]
    exact ⟨fun ⟨n, hn, matched, eq⟩ => ⟨n, hn, matched, eq.symm⟩,
      fun ⟨n, hn, matched, eq⟩ => ⟨n, hn, matched, eq.symm⟩⟩
  refine ⟨edges, mem_iff, ?_, hasNode_iff_of_mem_iff mem_iff h⟩
  rw [(Store.Reachable.execute ok).consistent.uids_nodes]
  exact r'.nodes.nodup_keys

/-- The answer to a query is that to the plan that it is read as. -/
theorem query_of_read {text : String} {p : Plan} {r : Store} (ok : read text = .ok p)
    (ran : p.execute s = .ok r) : s.query text = .ok r := by
  rw [Store.query, ok]
  show (p.execute s).mapError QueryError.graph = .ok r
  rw [ran]
  rfl

/-- **A query fails only where it cannot be read.** -/
theorem query_eq_error_iff (s : Store) (text : String) (e : QueryError) :
    s.query text = .error e ↔ Plan.read text = .error e := by
  unfold Store.query
  cases read : Plan.read text with
  | error e' => exact ⟨fun h => Except.error.inj h ▸ rfl, fun h => Except.error.inj h ▸ rfl⟩
  | ok p =>
    obtain ⟨r, ok, -⟩ := execute_eq_ok p s
    refine iff_of_false ?_ (by simp)
    show (p.execute s).mapError QueryError.graph ≠ .error e
    rw [ok]
    exact fun h => nomatch h

/-- **What a query brings.** Executing a plan on a graph that calls can make never fails, and the
answer holds a bare copy of each node that some pattern matches, once, and nothing else. What the
plan returns has no part in it. And a query text fails on a graph exactly if it cannot be read,
with the same error, whatever the graph holds. -/
theorem execute_answers {s : Store} (h : s.Reachable) (p : Plan) :
    (∃ r, p.execute s = .ok r ∧ p.Answers s r) ∧
    (∀ returns, execute ⟨p.clauses, returns⟩ s = p.execute s) ∧
    ∀ text e, s.query text = .error e ↔ Plan.read text = .error e := by
  obtain ⟨r, ok, -⟩ := execute_eq_ok p s
  exact ⟨⟨r, ok, answers_of_execute h.consistent ok⟩, fun returns => rfl, query_eq_error_iff s⟩

/-- Two patterns that match the same node, one of them the number `7` by the text `7`. -/
theorem execute_answers_of_overlap :
    let s := Store.empty.after [.addNode "a" "L" (Table.empty.insert "k" (.integer 7))]
    let p : Plan :=
      ⟨[⟨[⟨"n", [], Table.empty.insert "k" (.string "7")⟩, ⟨"n", ["L"], .empty⟩]⟩], .ofList ["n"]⟩
    s.Reachable ∧ ∃ r, p.execute s = .ok r ∧ p.Answers s r :=
  ⟨⟨_, rfl⟩, (execute_answers ⟨_, rfl⟩ _).1⟩

end Plan

end PropertyGraph.Query
