import Mathlib.Data.List.Forall2
import PropertyGraph.Proofs.Outcome
import PropertyGraph.Proofs.Query.Clauses
import PropertyGraph.Query.Reading

/-!
# What a statement means

`Statement.Means` says which plan a statement stands for, part by part and without going through
anything: a pattern has the variable and the labels that are written, and under each key the value
that is written there; the variables to return come in the order in which they first occur. With
`Denotes` this says of a text which plan it stands for (`Stands`), and `Plan.read_correct` is that
`Plan.read` finds this plan: it complains of the form of a text only if nothing in the language has
this form.
-/

namespace PropertyGraph.Query

/-! ## First occurrences -/

/-- The first occurrence of one text in a list lies before that of another. -/
def Precedes (texts : List String) (x y : String) : Prop := ∃ u v, texts = u ++ v ∧ x ∈ u ∧ y ∉ u

/-- Of two texts one comes first. -/
theorem Precedes.asymm {texts : List String} {x y : String} (h : Precedes texts x y) :
    ¬ Precedes texts y x := by
  rintro ⟨u', v', eq', hy, hx⟩
  obtain ⟨u, v, eq, hx', hy'⟩ := h
  -- of two beginnings of a list one is a beginning of the other
  obtain ⟨w, rfl, -⟩ | ⟨w, rfl, -⟩ := List.append_eq_append_iff.1 (eq.symm.trans eq')
  · exact hx (List.mem_append_left w hx')
  · exact hy' (List.mem_append_left w hy)

/-- **What it is to list texts in the order of their first occurrence.** -/
structure Distinct.Lists (d : Distinct) (texts : List String) : Prop where
  /-- The same texts are listed. -/
  mem_iff : ∀ x, x ∈ d.toList ↔ x ∈ texts
  /-- They come in the order of their first occurrence. -/
  order : d.toList.Pairwise (Precedes texts)

/-- Dropping repeats keeps texts in the order in which they first occur. -/
theorem pairwise_eraseDups (texts : List String) :
    texts.eraseDups.Pairwise (Precedes texts) := by
  match texts with
  | [] => exact .nil
  | a :: as =>
    have ih := pairwise_eraseDups (as.filter fun b => !b == a)
    rw [List.eraseDups_cons]
    refine List.pairwise_cons.2 ⟨fun y hy => ?first, ih.imp_of_mem fun {x y} _ hy h => ?later⟩
    case first =>
      have ne : y ≠ a := by simpa using (List.mem_filter.1 (List.mem_eraseDups.1 hy)).2
      exact ⟨[a], as, rfl, List.mem_singleton.2 rfl, fun mem => ne (List.mem_singleton.1 mem)⟩
    case later =>
      obtain ⟨u, v, eq, hx, hy'⟩ := h
      obtain ⟨u, v, rfl, rfl, rfl⟩ := List.filter_eq_append_iff.1 eq
      have other := (List.mem_filter.1 (List.mem_eraseDups.1 hy)).2
      refine ⟨a :: u, v, rfl, List.mem_cons_of_mem a (List.mem_of_mem_filter hx), fun mem => ?_⟩
      obtain rfl | mem := List.mem_cons.1 mem
      · simp at other
      · exact hy' (List.mem_filter.2 ⟨mem, other⟩)
termination_by texts.length
decreasing_by exact Nat.lt_succ_of_le (List.length_filter_le _ _)

/-- Texts are listed without repeats in one way only. -/
theorem Distinct.lists_iff {d : Distinct} {texts : List String} :
    d.Lists texts ↔ d = .ofList texts := by
  have lists : (Distinct.ofList texts).Lists texts :=
    ⟨fun _ => List.mem_eraseDups, pairwise_eraseDups texts⟩
  refine ⟨fun h => ?_, fun h => h ▸ lists⟩
  have perm := (List.perm_ext_iff_of_nodup d.nodup (Distinct.ofList texts).nodup).2 fun x =>
    (h.mem_iff x).trans (lists.mem_iff x).symm
  have eq := perm.eq_of_pairwise (fun _ _ _ _ before after => absurd after before.asymm)
    h.order lists.order
  obtain ⟨l, nodup⟩ := d
  unfold Distinct.ofList at eq ⊢
  congr

/-! ## Meaning -/

/-- **What a literal means**: a text is taken as it is between its quotes, and a number in decimal.
-/
inductive Literal.Means : Literal → Value → Prop
  | text {content} : Means (.text content) (.string (String.ofList content))
  | boolean {truth} : Means (.boolean truth) (.boolean truth)
  | integer {minus digits} {number : Int64} : number.toInt = denoted minus digits →
    Means (.integer minus digits) (.integer number)

/-- **What a written pattern means.** -/
structure PatternText.Means (w : PatternText) (p : Pattern) : Prop where
  /-- The variable is as written. -/
  binds : p.binds = String.ofList w.binds
  /-- The labels are as written between backticks or without. -/
  labels : p.labels = w.labels.map String.ofList
  /-- No key is written twice. -/
  distinct : (w.entries.map fun e => String.ofList e.key).Nodup
  /-- Under each key stands the value that is written for it. -/
  held : ∀ e ∈ w.entries, ∃ v, e.literal.Means v ∧
    p.properties.get? (String.ofList e.key) = some v
  /-- Under a key that is not written stands nothing. -/
  only : ∀ k, k ∉ w.entries.map (fun e => String.ofList e.key) → p.properties.get? k = none

/-- **What a statement means**: a clause with one pattern for each one written, in text order, and
the variables behind `RETURN` in the order of their first occurrence. -/
structure Statement.Means (s : Statement) (p : Plan) : Prop where
  /-- Each clause has the pattern that is written in it. -/
  clauses : ∃ qs, p.clauses = qs.map (⟨[·]⟩) ∧ List.Forall₂ PatternText.Means s.patterns qs
  /-- The variables are those written. -/
  returns : p.returns.Lists (s.returns.map String.ofList)

/-- **What it is for a text to stand for a plan.** -/
def Stands (text : List Char) (p : Plan) : Prop := ∃ s, Denotes text s ∧ s.Means p

/-! ## Lists member by member -/

section MemberByMember

variable {α β γ : Type} {R : α → β → Prop} {as : List α} {bs : List β}

/-- What is the same of the members one by one is the same of the lists. -/
theorem forall₂_eq_iff {f : α → γ} {g : β → γ} :
    List.Forall₂ (fun a b => f a = g b) as bs ↔ as.map f = bs.map g := by
  rw [← List.forall₂_eq_eq_eq, List.forall₂_map_left_iff, List.forall₂_map_right_iff]

/-- Each member of either list has a counterpart in the other. -/
theorem exists_mem_of_forall₂ (h : List.Forall₂ R as bs) :
    (∀ a ∈ as, ∃ b ∈ bs, R a b) ∧ ∀ b ∈ bs, ∃ a ∈ as, R a b := by
  induction h with
  | nil => exact ⟨List.forall_mem_nil _, List.forall_mem_nil _⟩
  | cons one _ ih =>
    refine ⟨List.forall_mem_cons.2 ⟨⟨_, List.mem_cons_self, one⟩, fun a ha => ?_⟩,
      List.forall_mem_cons.2 ⟨⟨_, List.mem_cons_self, one⟩, fun b hb => ?_⟩⟩
    · obtain ⟨b, hb, same⟩ := ih.1 a ha
      exact ⟨b, List.mem_cons_of_mem _ hb, same⟩
    · obtain ⟨a, ha, same⟩ := ih.2 b hb
      exact ⟨a, List.mem_cons_of_mem _ ha, same⟩

/-- If each member has a counterpart then there is a list of counterparts. -/
theorem exists_forall₂ (h : ∀ a ∈ as, ∃ b, R a b) : ∃ bs, List.Forall₂ R as bs := by
  induction as with
  | nil => exact ⟨[], .nil⟩
  | cons a rest ih =>
    obtain ⟨⟨b, one⟩, others⟩ := List.forall_mem_cons.1 h
    obtain ⟨bs, others⟩ := ih others
    exact ⟨b :: bs, .cons one others⟩

end MemberByMember

/-! ## Finding the meaning -/

/-- A traversal succeeds exactly if each of its steps does. -/
theorem mapM_eq_ok_iff {ε α β : Type} {f : α → Except ε β} {as : List α} {bs : List β} :
    as.mapM f = .ok bs ↔ List.Forall₂ (fun a b => f a = .ok b) as bs := by
  induction as generalizing bs with
  | nil =>
    rw [List.mapM_nil, List.forall₂_nil_left_iff]
    exact ⟨fun eq => (Except.ok.inj eq).symm, fun eq => congrArg _ eq.symm⟩
  | cons a as ih =>
    rw [List.mapM_cons, bind_eq_ok_iff]
    simp only [bind_eq_ok_iff, ih]
    constructor
    · rintro ⟨b, first, bs, others, ⟨⟩⟩
      exact .cons first others
    · rintro (_ | ⟨first, others⟩)
      exact ⟨_, first, _, others, rfl⟩

namespace Statement

variable {text : List Char}

/-- A literal has a value exactly if it means it. -/
theorem valueOf_eq_ok_iff {offset : Nat} {l : Literal} {v : Value} :
    valueOf text offset l = .ok v ↔ l.Means v := by
  constructor
  · intro eq
    cases l with
    | text content =>
      cases eq
      exact .text
    | boolean truth =>
      cases eq
      exact .boolean
    | integer minus digits =>
      rw [valueOf] at eq
      split at eq
      next number inside =>
        cases eq
        exact .integer (Decimal.toInt_of_toInt64 inside)
      next => nomatch eq
  · rintro (_ | _ | inside)
    · rfl
    · rfl
    · rw [valueOf, ← inside, Decimal.toInt64_toInt]

/-- An entry is taken in exactly if it means a value and its key is new. -/
theorem propertiesOf_cons_eq_ok_iff {binds : String} {done t : PropertyMap} {e : Entry}
    {rest : List Entry} : propertiesOf text binds done (e :: rest) = .ok t ↔
      ∃ v, e.literal.Means v ∧ ¬ done.contains (String.ofList e.key) ∧
        propertiesOf text binds (done.insert (String.ofList e.key) v) rest = .ok t := by
  rw [propertiesOf]
  cases value : valueOf text e.offset e.literal with
  | error error =>
    constructor
    · rintro ⟨⟩
    · rintro ⟨v, means, -⟩
      nomatch value.symm.trans (valueOf_eq_ok_iff.2 means)
  | ok v =>
    show (if done.contains _ then _ else _) = _ ↔ _
    constructor
    · intro eq
      split at eq
      next => nomatch eq
      next fresh => exact ⟨v, valueOf_eq_ok_iff.1 value, fresh, eq⟩
    · rintro ⟨v', means, fresh, eq⟩
      obtain rfl : v = v' := Except.ok.inj (value.symm.trans (valueOf_eq_ok_iff.2 means))
      rwa [if_neg fresh]

/-- The entries are added if none of them repeats a key and each has a value. -/
theorem propertiesOf_eq_ok_iff {binds : String} {done t : PropertyMap} {entries : List Entry} :
    propertiesOf text binds done entries = .ok t ↔
      (∀ e ∈ entries, ¬ done.contains (String.ofList e.key)) ∧
      (entries.map fun e => String.ofList e.key).Nodup ∧
      (∀ e ∈ entries, ∃ v, e.literal.Means v ∧ t.get? (String.ofList e.key) = some v) ∧
      ∀ k, k ∉ entries.map (fun e => String.ofList e.key) → t.get? k = done.get? k := by
  induction entries generalizing done with
  | nil =>
    constructor
    · rintro ⟨⟩
      exact ⟨List.forall_mem_nil _, .nil, List.forall_mem_nil _, fun _ _ => rfl⟩
    · rintro ⟨-, -, -, same⟩
      rw [propertiesOf, Table.ext_get? fun k => same k List.not_mem_nil]
  | cons e rest ih =>
    rw [propertiesOf_cons_eq_ok_iff]
    simp only [ih, List.forall_mem_cons]
    simp only [List.map_cons, List.nodup_cons, List.mem_cons, not_or]
    constructor
    · rintro ⟨v, means, fresh, others, nodup, held, same⟩
      -- the first key has just been added, so none of the others may be the same
      have notin : String.ofList e.key ∉ rest.map fun e => String.ofList e.key := by
        intro mem
        obtain ⟨e', he', eq⟩ := List.mem_map.1 mem
        refine others e' he' ?_
        rw [eq, Table.contains, Table.get?_insert, if_pos rfl]
        rfl
      refine ⟨⟨fresh, fun e' he' old => others e' he' ?_⟩, ⟨notin, nodup⟩,
        ⟨⟨v, means, ?_⟩, held⟩, ?_⟩
      · rw [Table.contains, Table.get?_insert]
        split
        next => rfl
        next => exact old
      · rw [same _ notin, Table.get?_insert, if_pos rfl]
      · rintro k ⟨ne, hk⟩
        rw [same k hk, Table.get?_insert, if_neg ne]
    · rintro ⟨⟨fresh, others⟩, ⟨notin, nodup⟩, ⟨⟨v, means, at_key⟩, held⟩, same⟩
      refine ⟨v, means, fresh, fun e' he' old => ?_, nodup, held, fun k hk => ?_⟩
      · have ne : String.ofList e'.key ≠ String.ofList e.key := fun eq =>
          notin (List.mem_map.2 ⟨e', he', eq⟩)
        rw [Table.contains, Table.get?_insert, if_neg ne] at old
        exact others e' he' old
      · rw [Table.get?_insert]
        split
        next eq => rw [eq, at_key]
        next ne => exact same k ⟨ne, hk⟩

/-- A written pattern is read as one exactly if it means that one. -/
theorem patternOf_eq_ok_iff {w : PatternText} {p : Pattern} :
    patternOf text w = .ok p ↔ w.Means p := by
  have nothing : ∀ k, (Table.empty : PropertyMap).get? k = none := Table.get?_empty
  unfold patternOf
  constructor
  · intro eq
    obtain ⟨t, entries, ⟨⟩⟩ := bind_eq_ok_iff.1 eq
    obtain ⟨-, distinct, held, only⟩ := propertiesOf_eq_ok_iff.1 entries
    exact ⟨rfl, rfl, distinct, held, only⟩
  · rintro ⟨binds, labels, distinct, held, only⟩
    obtain ⟨_, _, t⟩ := p
    obtain rfl := binds
    obtain rfl := labels
    refine bind_eq_ok_iff.2 ⟨t, propertiesOf_eq_ok_iff.2 ⟨?_, distinct, held, only⟩, rfl⟩
    exact fun e he => Bool.false_ne_true

/-- A statement is read as a plan exactly if it means that plan. -/
theorem planOf_eq_ok_iff {s : Statement} {p : Plan} : planOf text s = .ok p ↔ s.Means p := by
  unfold planOf
  constructor
  · intro eq
    obtain ⟨qs, patterns, ⟨⟩⟩ := bind_eq_ok_iff.1 eq
    have patterns := (mapM_eq_ok_iff.1 patterns).imp fun _ _ => patternOf_eq_ok_iff.1
    exact ⟨⟨qs, rfl, patterns⟩, Distinct.lists_iff.2 rfl⟩
  · rintro ⟨⟨qs, eq, patterns⟩, returns⟩
    obtain ⟨_, _⟩ := p
    obtain rfl := eq
    obtain rfl := Distinct.lists_iff.1 returns
    have patterns : s.patterns.mapM (patternOf text) = .ok qs :=
      mapM_eq_ok_iff.2 (patterns.imp fun _ _ => patternOf_eq_ok_iff.2)
    exact bind_eq_ok_iff.2 ⟨qs, patterns, rfl⟩

/-- A fault of what a statement says is no fault of its form. -/
def IsSemantic {α : Type} (r : Except QueryError α) : Prop := ∀ d, r ≠ .error (.malformed d)

/-- No step of a sequence finds a fault of form if neither of its parts does. -/
theorem isSemantic_bind {α β : Type} {x : Except QueryError α} {f : α → Except QueryError β}
    (hx : IsSemantic x) (hf : ∀ a, IsSemantic (f a)) : IsSemantic (x >>= f) := by
  intro d eq
  cases x with
  | error e =>
    -- an error is passed on as it is
    cases eq
    exact hx d rfl
  | ok a => exact hf a d eq

/-- The value of a literal is no matter of form. -/
theorem isSemantic_valueOf (offset : Nat) (l : Literal) : IsSemantic (valueOf text offset l) := by
  intro d eq
  cases l with
  | text => nomatch eq
  | boolean => nomatch eq
  | integer =>
    rw [valueOf] at eq
    split at eq
    next => nomatch eq
    next => nomatch eq

/-- Neither are entries. -/
theorem isSemantic_propertiesOf (binds : String) (done : PropertyMap) (entries : List Entry) :
    IsSemantic (propertiesOf text binds done entries) := by
  induction entries generalizing done with
  | nil => exact fun d eq => nomatch eq
  | cons e rest ih =>
    rw [propertiesOf]
    refine isSemantic_bind (isSemantic_valueOf _ _) fun v => ?_
    show IsSemantic (if done.contains _ then _ else _)
    split
    next => exact fun d eq => nomatch eq
    next => exact ih _

/-- Nor is a traversal whose steps are not. -/
theorem isSemantic_mapM {α β : Type} {f : α → Except QueryError β} (hf : ∀ a, IsSemantic (f a))
    (as : List α) : IsSemantic (as.mapM f) := by
  induction as with
  | nil =>
    rw [List.mapM_nil]
    exact fun d eq => nomatch eq
  | cons a as ih =>
    rw [List.mapM_cons]
    exact isSemantic_bind (hf a) fun b => isSemantic_bind ih fun bs d eq => nomatch eq

/-- Neither are patterns. -/
theorem isSemantic_patternOf (w : PatternText) : IsSemantic (patternOf text w) := by
  refine isSemantic_bind (isSemantic_propertiesOf _ _ _) ?_
  rintro t d ⟨⟩

/-- So a statement is never refused for its form. -/
theorem isSemantic_planOf (s : Statement) : IsSemantic (planOf text s) := by
  refine isSemantic_bind (isSemantic_mapM isSemantic_patternOf _) ?_
  rintro qs d ⟨⟩

end Statement

/-! ## Reading texts -/

/-- A text denotes one statement at most. -/
theorem Denotes.unique {text : List Char} {s s' : Statement} (h : Denotes text s)
    (h' : Denotes text s') : s = s' := by
  have eq := Statement.read?_eq_some_iff.2 h
  rw [Statement.read?_eq_some_iff.2 h'] at eq
  exact (Option.some.inj eq).symm

/-- A statement means one plan at most. -/
theorem Statement.Means.unique {s : Statement} {p q : Plan} (h : s.Means p) (h' : s.Means q) :
    p = q := by
  have eq : planOf [] s = .ok p := planOf_eq_ok_iff.2 h
  rw [planOf_eq_ok_iff.2 h'] at eq
  exact (Except.ok.inj eq).symm

/-- **A text stands for one plan at most.** -/
theorem Stands.unique {text : List Char} {p q : Plan} (h : Stands text p) (h' : Stands text q) :
    p = q := by
  obtain ⟨s, denotes, means⟩ := h
  obtain ⟨s', denotes', means'⟩ := h'
  obtain rfl := denotes.unique denotes'
  exact means.unique means'

namespace Plan

/-- A text is refused for its form exactly if it denotes no statement. -/
theorem readChars_eq_malformed_iff {text : List Char} :
    (∃ d, readChars text = .error (.malformed d)) ↔ ¬ ∃ s, Denotes text s := by
  unfold readChars
  cases read : Statement.read? text with
  | none =>
    refine ⟨fun _ ⟨s, denotes⟩ => ?_, fun _ => ⟨_, rfl⟩⟩
    rw [Statement.read?_eq_some_iff.2 denotes] at read
    nomatch read
  | some s =>
    refine ⟨fun ⟨d, eq⟩ => absurd eq ?_, fun h => absurd ⟨s, Statement.read?_eq_some_iff.1 read⟩ h⟩
    refine Statement.isSemantic_bind (Statement.isSemantic_planOf s) (fun p d eq => ?_) d
    split at eq
    next => nomatch eq
    next => nomatch eq

/-- A text is read as a plan exactly if it stands for it and the plan is valid. -/
theorem readChars_eq_ok_iff {text : List Char} {p : Plan} :
    readChars text = .ok p ↔ Stands text p ∧ p.validate = .ok () := by
  unfold readChars
  constructor
  · intro eq
    split at eq
    next => nomatch eq
    next s read =>
      obtain ⟨q, plan, eq⟩ := bind_eq_ok_iff.1 eq
      split at eq
      next valid =>
        cases eq
        have means := Statement.planOf_eq_ok_iff.1 plan
        exact ⟨⟨s, Statement.read?_eq_some_iff.1 read, means⟩, valid⟩
      next => nomatch eq
  · rintro ⟨⟨s, denotes, means⟩, valid⟩
    rw [Statement.read?_eq_some_iff.2 denotes]
    refine bind_eq_ok_iff.2 ⟨p, Statement.planOf_eq_ok_iff.2 means, ?_⟩
    rw [valid]

/-- **Reading is right about every text.** It complains of the form of a text if and only if
nothing in the language has this form; a text is a way of writing one statement at most and stands
for one plan at most; and what is read is this plan, whenever it is valid. -/
theorem read_correct (text : String) :
    ((∃ d, read text = .error (.malformed d)) ↔ ¬ ∃ s, Denotes text.toList s) ∧
    (∀ s s', Denotes text.toList s → Denotes text.toList s' → s = s') ∧
    (∀ p q, Stands text.toList p → Stands text.toList q → p = q) ∧
    ∀ p, read text = .ok p ↔ Stands text.toList p ∧ p.validate = .ok () :=
  ⟨readChars_eq_malformed_iff, fun _ _ => Denotes.unique, fun _ _ => Stands.unique,
    fun _ => readChars_eq_ok_iff⟩

/-- A text without any blank that could be left out, with names that need their backticks and a
variable that is returned twice; and one that lacks a blank. -/
theorem read_correct_of_scant_blanks :
    (∃ p, p.returns.toList = ["m", "n"] ∧ p.patterns.map (·.labels) = [["a b"], []] ∧
      ∀ q, Stands "match(n:\x60a b\x60)MATCH(m)return m,n , m".toList q ↔ q = p) ∧
    ¬ ∃ s, Denotes "MATCH (n) RETURNn".toList s := by
  refine ⟨?_, (read_correct "MATCH (n) RETURNn").1.1 ⟨_, rfl⟩⟩
  obtain ⟨-, -, unique, ok_iff⟩ := read_correct "match(n:\x60a b\x60)MATCH(m)return m,n , m"
  have found : (read "match(n:\x60a b\x60)MATCH(m)return m,n , m").toOption.map
      (fun p => (p.returns.toList, p.patterns.map (·.labels))) =
    some (["m", "n"], [["a b"], []]) := by decide
  revert found
  cases outcome : read "match(n:\x60a b\x60)MATCH(m)return m,n , m" with
  | error => exact fun found => nomatch found
  | ok p =>
    intro found
    have found := Prod.mk.inj (Option.some.inj found)
    have stands := ((ok_iff p).1 outcome).1
    exact ⟨p, found.1, found.2, fun q => ⟨fun h => unique q p h stands, fun eq => eq ▸ stands⟩⟩

end Plan

end PropertyGraph.Query
