import PropertyGraph.Proofs.Query.Answers
import PropertyGraph.Proofs.Query.RoundTrip

/-!
# Which plans have a query text

`Plan.text` puts every string between double quotes, but a query may use single ones. So a string
can be written unless it has both (`Value.Quotable`), and a plan has a text exactly if it has a
written form and its strings can be written (`exists_read_iff`).

A label is any text, and not every label can be asked for: the nodes with a label are the answer to
some query exactly if the label has a written form, which an empty label and one with a backtick in
it have not.
-/

namespace PropertyGraph

/-- Not both kinds of quotes are in a value. -/
def Value.Quotable : Value → Prop
  | .string text => '\'' ∉ text.toList ∨ '"' ∉ text.toList
  | _ => True

namespace Query

/-- The strings of a plan can be written. -/
def Plan.Quotable (p : Plan) : Prop := ∀ q ∈ p.patterns, ∀ v ∈ q.properties.values, v.Quotable

/-! ## What is read can be written -/

/-- Not both kinds of quotes are in a literal. -/
def Literal.Quotable : Literal → Prop
  | .text content => '\'' ∉ content ∨ '"' ∉ content
  | _ => True

/-- A string that is written between quotes of one kind has none of that kind. -/
theorem WrittenLiteral.quotable {n : Nat} {t : List Char} {l : Literal}
    (h : WrittenLiteral n t l) : l.Quotable := by
  cases h with
  | text quote notin =>
    rcases quote with rfl | rfl
    · exact .inl notin
    · exact .inr notin
  | true => trivial
  | false => trivial
  | natural => trivial
  | negative => trivial

/-- The value that it means has none either. -/
theorem Literal.Means.quotable {l : Literal} {v : Value} (h : l.Means v) (written : l.Quotable) :
    v.Quotable := by
  cases h with
  | text =>
    show _ ∨ _
    rw [String.toList_ofList]
    exact written
  | boolean => trivial
  | integer => trivial

/-- So it is with all strings of a pattern. -/
theorem WrittenPattern.quotable (n : Nat) (t : List Char) (w : PatternText)
    (h : WrittenPattern n t w) : ∀ e ∈ w.entries, e.literal.Quotable :=
  (Persists.const fun e : Entry => e.literal.Quotable).entries
    (fun _ _ _ ⟨_, _, _, literal⟩ => literal.quotable) n t w h

/-- And with all strings of a plan. -/
theorem Stands.quotable {text : List Char} {p : Plan} (h : Stands text p) : p.Quotable := by
  obtain ⟨s, denotes, means⟩ := h
  have written : ∀ w ∈ s.patterns, ∀ e ∈ w.entries, e.literal.Quotable :=
    (Persists.const fun w : PatternText => ∀ e ∈ w.entries, e.literal.Quotable).patterns
      WrittenPattern.quotable denotes
  intro q hq
  obtain ⟨w, hw, means⟩ := (exists_mem_of_forall₂ means.forall₂_patterns).2 q hq
  obtain ⟨-, -, held, same, perm⟩ := PatternText.means_iff.1 means
  refine List.forall_mem_map.2 fun kv mem => ?_
  obtain ⟨e, he, -, value⟩ := (exists_mem_of_forall₂ same).2 kv (perm.mem_iff.2 mem)
  exact value.quotable (written w hw e he)

/-! ## A text for every plan -/

/-- A value as written in a query, a string between quotes that are not in it. -/
def writeQuoted : Value → List Char
  | .string text =>
    let quote := if '"' ∈ text.toList then '\'' else '"'
    quote :: text.toList ++ [quote]
  | v => v.text.toList

/-- A string says itself between quotes of the kind that it does not hold. -/
theorem expresses_writeQuoted {v : Value} (visible : v.kind ≠ .bytes) (quotable : v.Quotable) :
    Expresses WrittenLiteral Literal.Means (writeQuoted v) v := by
  cases v with
  | string text =>
    intro n
    have means : Literal.Means (.text text.toList) (.string (String.ofList text.toList)) := .text
    rw [String.ofList_toList] at means
    refine ⟨.text text.toList, ?_, means⟩
    rw [writeQuoted]
    by_cases double : '"' ∈ text.toList
    · rw [if_pos double]
      exact .text (.inl rfl) (quotable.resolve_right (not_not_intro double))
    · rw [if_neg double]
      exact .text (.inr rfl) double
  | integer number => exact expresses_integer number
  | boolean truth => exact expresses_value visible trivial
  | bytes payload => exact absurd rfl visible

/-- A plan as written in a query, each string between quotes that are not in it. -/
def Plan.writeQuoted (p : Plan) : List Char :=
  p.patterns.flatMap (fun q => "MATCH ".toList ++ q.writeBy Query.writeQuoted ++ [' ']) ++
    "RETURN ".toList ++ joinWith ", " (p.returns.toList.map String.toList)

/-- **A plan with a written form is read back if its strings are quotable.** -/
theorem Plan.WellFormed.read_writeQuoted {p : Plan} (h : p.WellFormed) (quotable : p.Quotable) :
    Plan.read (String.ofList p.writeQuoted) = .ok p := by
  rw [Plan.read, String.toList_ofList]
  refine Plan.readChars_eq_ok_iff.2 ⟨h.stands fun q hq => ?_, h.validate_eq_ok⟩
  refine Pattern.expresses_writeBy (h.patterns q hq) fun v hv => ?_
  exact expresses_writeQuoted ((h.patterns q hq).values v hv) (quotable q hq v hv)

/-- **These are the plans that some text is read as.** -/
theorem exists_read_eq_ok_iff {p : Plan} :
    (∃ text, Plan.read text = .ok p) ↔ p.WellFormed ∧ p.Quotable := by
  constructor
  · rintro ⟨text, ok⟩
    obtain ⟨stands, valid⟩ := Plan.readChars_eq_ok_iff.1 ok
    exact ⟨stands.wellFormed valid, stands.quotable⟩
  · rintro ⟨wellFormed, quotable⟩
    exact ⟨_, wellFormed.read_writeQuoted quotable⟩

/-! ## Labels -/

/-- **A text asks for a label**: whatever graph calls have made, it brings the nodes with this label
and no other. -/
def AsksFor (text label : String) : Prop := ∀ s : Store, s.Reachable → ∃ r, s.query text = .ok r ∧
  ∀ u, r.hasNode u ↔ ∃ n, s.nodes.get? u = some n ∧ n.label = label

/-- The plan of a query for the nodes with a label. -/
def Plan.ofLabel (label : String) : Plan := ⟨[⟨[⟨"n", [label], .empty⟩]⟩], .ofList ["n"]⟩

/-- The variable `n` is a word. -/
theorem word_n : Word "n".toList := ⟨List.cons_ne_nil _ _, List.forall_mem_singleton.2 rfl⟩

/-- To ask for a label has a written form if the label has one. -/
theorem IsName.wellFormed_ofLabel {label : String} (h : IsName label) :
    (Plan.ofLabel label).WellFormed where
  clauses := List.cons_ne_nil _ _
  single := List.forall_mem_singleton.2 rfl
  patterns := List.forall_mem_singleton.2 ⟨word_n, List.forall_mem_singleton.2 h, Nat.le_refl 1,
    List.forall_mem_nil _, List.forall_mem_nil _⟩
  returns := List.cons_ne_nil _ _
  words := List.forall_mem_singleton.2 word_n
  bound := List.forall_mem_singleton.2 ⟨_, List.mem_singleton.2 rfl, rfl⟩

/-- It is read back from that. -/
theorem IsName.read_ofLabel {label : String} (h : IsName label) :
    Plan.read (String.ofList (Plan.ofLabel label).writeQuoted) = .ok (.ofLabel label) :=
  h.wellFormed_ofLabel.read_writeQuoted (List.forall_mem_singleton.2 (List.forall_mem_nil _))

/-- Every label that a query names has a written form. -/
theorem isName_of_read {text label : String} {p : Plan} {q : Pattern}
    (ok : Plan.read text = .ok p) (hq : q ∈ p.patterns) (named : label ∈ q.labels) :
    IsName label :=
  ((exists_read_eq_ok_iff.1 ⟨text, ok⟩).1.patterns q hq).labels _ named

/-- To ask for a label is to match the nodes with it. -/
theorem Plan.matches_ofLabel_iff {label : String} {n : Node} :
    (ofLabel label).Matches n ↔ n.label = label := by
  constructor
  · rintro ⟨c, hc, q, hq, matched⟩
    obtain rfl := List.mem_singleton.1 hc
    obtain rfl := List.mem_singleton.1 hq
    exact List.mem_singleton.1 (matched.label.resolve_left (List.cons_ne_nil _ _))
  · rintro rfl
    exact ⟨_, List.mem_singleton.2 rfl, _, List.mem_singleton.2 rfl,
      .inr (List.mem_singleton.2 rfl), fun _ _ found => nomatch found⟩

/-- A label that has a written form can be asked for. -/
theorem IsName.asksFor {label : String} (h : IsName label) :
    AsksFor (String.ofList (Plan.ofLabel label).writeQuoted) label := by
  intro s hs
  obtain ⟨r, ran, -⟩ := Plan.execute_eq_ok (Plan.ofLabel label) s
  have answers := Plan.answers_of_execute hs.consistent ran
  refine ⟨r, Plan.query_of_read h.read_ofLabel ran, fun u => ?_⟩
  rw [Store.hasNode_iff]
  simp only [answers.mem_iff, Plan.matches_ofLabel_iff]
  exact ⟨fun ⟨_, n, hn, label, _⟩ => ⟨n, hn, label⟩, fun ⟨n, hn, label⟩ => ⟨_, n, hn, label, rfl⟩⟩

/-- A graph of two nodes with given labels. -/
def twoNodes (label other : String) : Store :=
  .after .empty [.addNode "a" label .empty, .addNode "b" other .empty]

/-- A graph to try a query on: two nodes, told apart by their labels. -/
theorem get?_twoNodes (label other : String) :
    (twoNodes label other).nodes.get? "a" = some (.isolated "a" label .empty) ∧
    (twoNodes label other).nodes.get? "b" = some (.isolated "b" other .empty) := by
  simp [twoNodes, Store.call, Store.addNode, Store.hasNode, Table.contains, Store.outcome,
    Store.empty, Table.get?_insert]

/-- Unless a pattern names the label it does not tell a node with it from one with another. -/
theorem AsksFor.isName {text label : String} (h : AsksFor text label) : IsName label := by
  obtain ⟨other, ne⟩ : ∃ other, other ≠ label := by
    by_cases empty : label = ""
    · exact ⟨"x", by rw [empty]; decide⟩
    · exact ⟨"", Ne.symm empty⟩
  have reachable : (twoNodes label other).Reachable := ⟨_, rfl⟩
  obtain ⟨ha, hb⟩ := get?_twoNodes label other
  obtain ⟨r, asked, brings⟩ := h _ reachable
  obtain ⟨p, read, ran⟩ := Store.execute_of_query asked
  have answers := Plan.answers_of_execute reachable.consistent ran
  obtain ⟨m, hm⟩ := Store.hasNode_iff.1 ((brings "a").2 ⟨_, ha, rfl⟩)
  obtain ⟨n, hn, ⟨c, hc, q, hq, matched⟩, -⟩ := (answers.mem_iff "a" m).1 hm
  obtain rfl := Option.some.inj (ha.symm.trans hn)
  rcases matched.label with none | named
  · have both : q.Matches (.isolated "b" other .empty) := ⟨.inl none, matched.property⟩
    have found := (answers.mem_iff "b" _).2 ⟨_, hb, ⟨c, hc, q, hq, both⟩, rfl⟩
    obtain ⟨n, hn, eq⟩ := (brings "b").1 (Store.hasNode_iff.2 ⟨_, found⟩)
    obtain rfl := Option.some.inj (hb.symm.trans hn)
    exact absurd eq ne
  · exact isName_of_read read (List.mem_flatMap.2 ⟨c, hc, hq⟩) named

/-- **What can be asked.** The plans that query texts stand for are those with one pattern in each
clause, of which there is one at least; with words as variables, at least one of them returned and
each of those bound; with at most one label in a pattern; with labels and keys that are not empty
and have no backtick; and with integers, truth values, and strings that do not have both kinds of
quotes. So a label can be named in a query, and the nodes that carry it asked for, exactly if it is
not empty and has no backtick. -/
theorem expressible_iff :
    (∀ p, (∃ text, Plan.read text = .ok p) ↔ p.WellFormed ∧ p.Quotable) ∧
    (∀ label, (∃ text p, Plan.read text = .ok p ∧ ∃ q ∈ p.patterns, label ∈ q.labels) ↔
      IsName label) ∧
    ∀ label, (∃ text, AsksFor text label) ↔ IsName label := by
  refine ⟨fun p => exists_read_eq_ok_iff, fun label => ⟨?_, fun h => ?_⟩,
    fun label => ⟨fun ⟨_, asks⟩ => asks.isName, fun h => ⟨_, h.asksFor⟩⟩⟩
  · rintro ⟨text, p, ok, q, hq, named⟩
    exact isName_of_read ok hq named
  · exact ⟨_, _, h.read_ofLabel, _, List.mem_singleton.2 rfl, List.mem_singleton.2 rfl⟩

end Query

end PropertyGraph
