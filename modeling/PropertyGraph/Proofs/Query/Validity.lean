import PropertyGraph.Proofs.Query.Meaning

/-!
# Valid plans

What `Plan.validate` finds, said of the patterns and variables of a plan, and what of that can be
seen from the statement that means the plan.
-/

namespace PropertyGraph.Query

/-- Repeats do not change what is found first. -/
theorem find?_eraseDups (f : String → Bool) (texts : List String) :
    texts.eraseDups.find? f = texts.find? f := by
  match texts with
  | [] => rfl
  | a :: as =>
    rw [List.eraseDups_cons, List.find?_cons, List.find?_cons, find?_eraseDups]
    cases fa : f a with
    | true => rfl
    | false =>
      -- what was dropped is the same text over again, which is not looked for
      rw [List.find?_filter]
      refine congrArg (List.find? · as) (funext fun b => ?_)
      by_cases eq : b = a
      · simp [eq, fa]
      · simp [eq]
termination_by texts.length
decreasing_by exact Nat.lt_succ_of_le (List.length_filter_le _ _)

namespace Plan

variable {p : Plan}

/-! ## Validity -/

/-- The bound variables are those of the patterns. -/
theorem contains_bound_iff {v : String} :
    p.bound.toList.contains v ↔ ∃ q ∈ p.patterns, q.binds = v := by
  rw [List.contains_iff_mem, bound, Distinct.ofList, List.mem_eraseDups, List.mem_map]

/-- The first pattern with two labels is the one that is complained of. -/
theorem validate_of_manyLabels {qs rs : List Pattern} {q : Pattern}
    (eq : p.patterns = qs ++ q :: rs) (before : ∀ r ∈ qs, r.labels.length ≤ 1)
    (many : 2 ≤ q.labels.length) : p.validate = .error (.multipleLabels q.binds q.labels) := by
  have found : p.patterns.find? (fun q => 1 < q.labels.length) = some q := by
    rw [List.find?_eq_some_iff_append]
    exact ⟨decide_eq_true many, qs, rs, eq, fun r hr => by simpa using before r hr⟩
  rw [validate, found]

/-- With at most one label in each pattern there is none to complain of. -/
theorem find?_labels_eq_none (few : ∀ q ∈ p.patterns, q.labels.length ≤ 1) :
    p.patterns.find? (fun q => 1 < q.labels.length) = none := by
  rw [List.find?_eq_none]
  exact fun q hq => by simpa using few q hq

/-- Only where no pattern has two labels does a variable that is not bound come up. -/
theorem validate_of_unbound {v : String} (few : ∀ q ∈ p.patterns, q.labels.length ≤ 1)
    (found : p.returns.toList.find? (fun v => !p.bound.toList.contains v) = some v) :
    p.validate = .error (.unboundVariable v) := by
  rw [validate, find?_labels_eq_none few]
  simp only [found]

/-- **A plan is valid** if no pattern has two labels and all that is returned is bound. -/
theorem validate_eq_ok_iff : p.validate = .ok () ↔ (∀ q ∈ p.patterns, q.labels.length ≤ 1) ∧
    ∀ v ∈ p.returns.toList, ∃ q ∈ p.patterns, q.binds = v := by
  constructor
  · intro ok
    unfold validate at ok
    split at ok
    next => nomatch ok
    next few =>
      split at ok
      next => nomatch ok
      next bound =>
        rw [List.find?_eq_none] at few bound
        refine ⟨fun q hq => by simpa using few q hq, fun v hv => contains_bound_iff.1 ?_⟩
        simpa using bound v hv
  · rintro ⟨few, bound⟩
    have none : p.returns.toList.find? (fun v => !p.bound.toList.contains v) = none := by
      rw [List.find?_eq_none]
      intro v hv
      rw [contains_bound_iff.2 (bound v hv)]
      exact Bool.false_ne_true
    rw [validate, find?_labels_eq_none few]
    simp only [none]

end Plan

/-! ## Seen from the statement -/

namespace Statement.Means

variable {s : Statement} {p : Plan}

/-- The patterns of the plan are those of the statement, one in each clause. -/
theorem forall₂_patterns (h : s.Means p) :
    List.Forall₂ PatternText.Means s.patterns p.patterns := by
  obtain ⟨qs, eq, means⟩ := h.clauses
  have flat : p.patterns = qs := by
    rw [Plan.patterns, eq, List.flatMap_map]
    exact List.flatMap_singleton' qs
  rwa [flat]

/-- Variables and labels are as written. -/
theorem headings (h : s.Means p) : p.patterns.map (fun q => (q.binds, q.labels)) =
    s.patterns.map fun w => (String.ofList w.binds, w.labels.map String.ofList) := by
  refine (forall₂_eq_iff.1 (h.forall₂_patterns.imp fun w q means => ?_)).symm
  rw [means.binds, means.labels]

/-- A statement and a plan that it means have equally many labels in each pattern. -/
theorem forall_labels_iff (h : s.Means p) : (∀ q ∈ p.patterns, q.labels.length ≤ 1) ↔
    ∀ w ∈ s.patterns, w.labels.length ≤ 1 := by
  have lengths := congrArg (List.map fun heading => heading.2.length) h.headings
  simp only [List.map_map, Function.comp_def, List.length_map] at lengths
  rw [← List.forall_mem_map (P := (· ≤ 1)), lengths, List.forall_mem_map]

/-- What the plan binds is what the statement binds. -/
theorem binds_iff (h : s.Means p) {v : List Char} :
    (∃ q ∈ p.patterns, q.binds = String.ofList v) ↔ ∃ w ∈ s.patterns, w.binds = v := by
  have binds := congrArg (List.map (·.1)) h.headings
  simp only [List.map_map, Function.comp_def] at binds
  rw [← List.mem_map, binds, List.mem_map]
  simp only [String.ofList_inj]

theorem validate_of_manyLabels (h : s.Means p) {ws xs : List PatternText} {w : PatternText}
    (eq : s.patterns = ws ++ w :: xs) (before : ∀ x ∈ ws, x.labels.length ≤ 1)
    (many : 2 ≤ w.labels.length) : p.validate =
      .error (.multipleLabels (String.ofList w.binds) (w.labels.map String.ofList)) := by
  have headings := h.headings
  rw [eq, List.map_append, List.map_cons] at headings
  obtain ⟨qs, rest, patterns, few, headings⟩ := List.map_eq_append_iff.1 headings
  obtain ⟨q, rs, rfl, heading, -⟩ := List.map_eq_cons_iff.1 headings
  obtain ⟨binds, labels⟩ := Prod.mk.inj heading
  rw [← binds, ← labels]
  refine Plan.validate_of_manyLabels patterns (fun r hr => ?_) ?_
  · have mem := List.mem_map_of_mem (f := fun q : Pattern => (q.binds, q.labels)) hr
    rw [few] at mem
    obtain ⟨x, hx, heading⟩ := List.mem_map.1 mem
    rw [← (Prod.mk.inj heading).2, List.length_map]
    exact before x hx
  · rwa [labels, List.length_map]

theorem validate_of_unbound (h : s.Means p) {vs ws : List (List Char)} {v : List Char}
    (few : ∀ w ∈ s.patterns, w.labels.length ≤ 1) (eq : s.returns = vs ++ v :: ws)
    (before : ∀ w ∈ vs, ∃ q ∈ s.patterns, q.binds = w) (none : ∀ q ∈ s.patterns, q.binds ≠ v) :
    p.validate = .error (.unboundVariable (String.ofList v)) := by
  refine Plan.validate_of_unbound (h.forall_labels_iff.2 few) ?_
  rw [Distinct.lists_iff.1 h.returns, Distinct.ofList, find?_eraseDups, eq, List.map_append,
    List.map_cons, List.find?_eq_some_iff_append]
  refine ⟨?_, _, _, rfl, List.forall_mem_map.2 fun w hw => ?_⟩
  · rw [Bool.not_eq_true', ← Bool.not_eq_true, Plan.contains_bound_iff, h.binds_iff]
    exact fun ⟨q, hq, binds⟩ => none q hq binds
  · rw [Bool.not_not, Plan.contains_bound_iff, h.binds_iff]
    exact before w hw

theorem validate_eq_ok_iff (h : s.Means p) : p.validate = .ok () ↔
    (∀ w ∈ s.patterns, w.labels.length ≤ 1) ∧ ∀ v ∈ s.returns, ∃ w ∈ s.patterns, w.binds = v := by
  rw [Plan.validate_eq_ok_iff, h.forall_labels_iff]
  simp only [h.returns.mem_iff, List.forall_mem_map, h.binds_iff]

end Statement.Means

end PropertyGraph.Query
