import Mathlib.Algebra.Group.Int.Defs
import Mathlib.Data.List.Induction
import Mathlib.Data.List.Nodup
import PropertyGraph.Proofs.Query.Parts
import PropertyGraph.Proofs.Query.Validity

/-!
# Which fault a query is told

A text may have several faults at once: numbers out of range, keys repeated, patterns with two
labels, variables that nothing binds. `Verdict` says which one counts, by looking at what is
written and at nothing else: first comes the form, then the entries of the property maps from first
to last, then the labels, then the variables. `Plan.read_eq_iff_verdict` is that `Plan.read` comes
to this verdict on every text.
-/

namespace PropertyGraph

/-! ## Places and ranges -/

/-- **A place is behind a text** if its line is one more than the line feeds in the text, and its
column one more than the characters behind the last of them. -/
def Text.Place.IsBehind (p : Place) (text : List Char) : Prop :=
  p.line = text.count '\n' + 1 ∧ ∃ lines last, text = lines ++ last ∧ '\n' ∉ last ∧
    (lines = [] ∨ lines.getLast? = some '\n') ∧ p.column = last.length + 1

/-- The place that is told is the one behind the text, by induction from its last character. -/
theorem Text.Place.isBehind_after (text : List Char) : (after text).IsBehind text := by
  induction text using List.reverseRecOn with
  | nil => exact ⟨rfl, [], [], rfl, List.not_mem_nil, .inl rfl, rfl⟩
  | append_singleton text c ih =>
    obtain ⟨line, lines, last, eq, notin, ends, column⟩ := ih
    rw [after_concat, step]
    split
    next feed =>
      subst feed
      refine ⟨?_, _, [], (List.append_nil _).symm, List.not_mem_nil, .inr ?_, rfl⟩
      · rw [line, List.count_append, List.count_singleton_self]
      · exact List.getLast?_concat
    next ne =>
      refine ⟨?_, lines, last ++ [c], ?_, ?_, ends, ?_⟩
      · rw [line, List.count_append, List.count_singleton, if_neg (by simpa using ne)]
      · rw [eq, List.append_assoc]
      · simp [notin, Ne.symm ne]
      · rw [column, List.length_append]
        rfl

/-- There is one place behind a text. -/
theorem Text.Place.isBehind_iff {p : Place} {text : List Char} :
    p.IsBehind text ↔ p = after text := by
  -- read backwards, the last line is what comes in front of the first line feed
  have columns : ∀ {q : Place}, q.IsBehind text →
      q.column = (text.reverse.takeWhile (· ≠ '\n')).length + 1 := by
    rintro q ⟨-, lines, last, rfl, notin, ends, column⟩
    have all : ∀ c ∈ last.reverse, decide (c ≠ '\n') := fun c hc =>
      decide_eq_true fun eq => notin (eq ▸ List.mem_reverse.1 hc)
    have stop : lines.reverse.takeWhile (· ≠ '\n') = [] := by
      obtain rfl | ends := ends
      · rfl
      · rw [← List.head?_reverse, List.head?_eq_some_iff] at ends
        obtain ⟨rest, eq⟩ := ends
        rw [eq]
        rfl
    rw [column, List.reverse_append, List.takeWhile_append_of_pos all, stop, List.append_nil,
      List.length_reverse]
  refine ⟨fun h => ?_, fun eq => eq ▸ isBehind_after text⟩
  have lines := h.1.trans (isBehind_after text).1.symm
  have columns := (columns h).trans (columns (isBehind_after text)).symm
  obtain ⟨_, _⟩ := p
  exact congr (congrArg Place.mk lines) columns

/-- Which numbers are too large and which too small. -/
def Decimal.Excess.Of : Excess → Int → Prop
  | tooLarge, n => 2 ^ 63 - 1 < n
  | tooSmall, n => n < -2 ^ 63

/-- A number is refused exactly if it is too large or too small, and told which. -/
theorem Decimal.toInt64_eq_error_iff {n : Int} {x : Excess} :
    toInt64 n = .error x ↔ x.Of n := by
  unfold toInt64 greatest least
  split
  next large => cases x <;> simp [Excess.Of] <;> omega
  next =>
    split
    next small => cases x <;> simp [Excess.Of] <;> omega
    next => cases x <;> simp [Excess.Of] <;> omega

namespace Query

/-! ## Faults -/

/-- A literal has a value unless it is a number out of range. -/
def Literal.InRange : Literal → Prop
  | .integer minus digits => -2 ^ 63 ≤ denoted minus digits ∧ denoted minus digits ≤ 2 ^ 63 - 1
  | _ => True

/-- **No entry is at fault**: no number is out of range and no key is repeated. -/
structure Faultless (entries : List Entry) : Prop where
  /-- No number is out of range. -/
  inRange : ∀ e ∈ entries, e.literal.InRange
  /-- No key is repeated. -/
  distinct : (entries.map (·.key)).Nodup

/-- **Nothing is at fault in front of an entry** `e` of a pattern `p`: neither an entry of a pattern
in front nor one of the entries `es` in front in the same map. -/
structure Statement.FaultlessUpTo (s : Statement) (p : PatternText) (es : List Entry) (e : Entry) :
    Prop where
  /-- The patterns in front are without fault. -/
  patterns : ∃ ps qs, s.patterns = ps ++ p :: qs ∧ ∀ q ∈ ps, Faultless q.entries
  /-- The others stand in front of the entry. -/
  entries : ∃ fs, p.entries = es ++ e :: fs
  /-- The others are without fault. -/
  before : Faultless es

/-- **What a text that is a statement comes to.** -/
inductive Verdict (text : List Char) (s : Statement) : Except QueryError Plan → Prop
  /-- The first entry at fault has a number out of range, be its key repeated or not. The number is
  told as it is written, with the place of its first character. -/
  | outOfRange {p es e minus digits excess before behind place} :
      s.FaultlessUpTo p es e → e.literal = .integer minus digits →
      excess.Of (denoted minus digits) →
      text = before ++ writeInteger minus digits ++ behind → before.length = e.offset →
      place.IsBehind before →
      Verdict text s
        (.error (.invalidLiteral (String.ofList (writeInteger minus digits)) place excess))
  /-- The first entry at fault has its number in range, but repeats a key of the same map. -/
  | repeatedKey {p es e} :
      s.FaultlessUpTo p es e → e.literal.InRange → e.key ∈ es.map (·.key) →
      Verdict text s
        (.error (.invalid (.duplicateKey (String.ofList p.binds) (String.ofList e.key))))
  /-- No entry is at fault, and `p` is the first pattern with two labels or more. -/
  | manyLabels {ps p qs} :
      (∀ q ∈ s.patterns, Faultless q.entries) → s.patterns = ps ++ p :: qs →
      (∀ q ∈ ps, q.labels.length ≤ 1) → 2 ≤ p.labels.length →
      Verdict text s
        (.error (.invalid (.multipleLabels (String.ofList p.binds) (p.labels.map String.ofList))))
  /-- Nothing is wrong with the patterns, and `v` is the first variable that none of them binds. -/
  | unbound {vs v ws} :
      (∀ q ∈ s.patterns, Faultless q.entries ∧ q.labels.length ≤ 1) → s.returns = vs ++ v :: ws →
      (∀ w ∈ vs, ∃ q ∈ s.patterns, q.binds = w) → (∀ q ∈ s.patterns, q.binds ≠ v) →
      Verdict text s (.error (.invalid (.unboundVariable (String.ofList v))))
  /-- Nothing is wrong, and the plan is the one that is meant. -/
  | valid {p} :
      (∀ q ∈ s.patterns, Faultless q.entries ∧ q.labels.length ≤ 1) →
      (∀ w ∈ s.returns, ∃ q ∈ s.patterns, q.binds = w) → s.Means p → Verdict text s (.ok p)

/-! ## First things -/

/-- All of a list is as it should be, or there is a first that is not. -/
theorem exists_first {α : Type} (P : α → Prop) (l : List α) :
    (∀ x ∈ l, P x) ∨ ∃ u x v, l = u ++ x :: v ∧ (∀ y ∈ u, P y) ∧ ¬ P x := by
  induction l with
  | nil => exact .inl (List.forall_mem_nil _)
  | cons a rest ih =>
    by_cases ha : P a
    · obtain all | ⟨u, x, v, rfl, before, fault⟩ := ih
      · exact .inl (List.forall_mem_cons.2 ⟨ha, all⟩)
      · exact .inr ⟨a :: u, x, v, rfl, List.forall_mem_cons.2 ⟨ha, before⟩, fault⟩
    · exact .inr ⟨[], a, rest, rfl, List.forall_mem_nil _, ha⟩

/-- One more entry is without fault if its number is in range and its key is new. -/
theorem faultless_concat_iff {es : List Entry} {e : Entry} :
    Faultless (es ++ [e]) ↔ Faultless es ∧ e.literal.InRange ∧ e.key ∉ es.map (·.key) := by
  have ranges : (∀ f ∈ es ++ [e], f.literal.InRange) ↔
      (∀ f ∈ es, f.literal.InRange) ∧ e.literal.InRange := by
    simp only [List.forall_mem_append, List.forall_mem_singleton]
  have keys : ((es ++ [e]).map (·.key)).Nodup ↔
      e.key ∉ es.map (·.key) ∧ (es.map (·.key)).Nodup := by
    rw [List.map_append, List.map_singleton, ← List.concat_eq_append, List.nodup_concat]
  constructor
  · rintro ⟨inRange, distinct⟩
    obtain ⟨inRange, last⟩ := ranges.1 inRange
    obtain ⟨fresh, distinct⟩ := keys.1 distinct
    exact ⟨⟨inRange, distinct⟩, last, fresh⟩
  · rintro ⟨⟨inRange, distinct⟩, last, fresh⟩
    exact ⟨ranges.2 ⟨inRange, last⟩, keys.2 ⟨fresh, distinct⟩⟩

/-- Either no entry of a list is at fault, or there is a first one that is. -/
theorem faultless_or_first (es : List Entry) :
    Faultless es ∨ ∃ before e behind, es = before ++ e :: behind ∧ Faultless before ∧
      ¬ (e.literal.InRange ∧ e.key ∉ before.map (·.key)) := by
  induction es using List.reverseRecOn with
  | nil => exact .inl ⟨List.forall_mem_nil _, .nil⟩
  | append_singleton es e ih =>
    obtain h | ⟨before, f, behind, rfl, h, fault⟩ := ih
    · by_cases fault : e.literal.InRange ∧ e.key ∉ es.map (·.key)
      · exact .inl (faultless_concat_iff.2 ⟨h, fault⟩)
      · exact .inr ⟨es, e, [], rfl, h, fault⟩
    · exact .inr ⟨before, f, behind ++ [e], List.append_assoc _ _ _, h, fault⟩

namespace Statement

variable {text : List Char} {s : Statement}

/-! ## Reading entries -/

/-- A literal has a value exactly if it is in range. -/
theorem exists_means_iff {l : Literal} : (∃ v, l.Means v) ↔ l.InRange := by
  cases l with
  | text => exact ⟨fun _ => trivial, fun _ => ⟨_, .text⟩⟩
  | boolean => exact ⟨fun _ => trivial, fun _ => ⟨_, .boolean⟩⟩
  | integer minus digits =>
    constructor
    · rintro ⟨_, means⟩
      cases means with
      | @integer _ _ number eq =>
        have lo := number.le_toInt
        have hi := number.toInt_lt
        exact ⟨by omega, by omega⟩
    · rintro ⟨lo, hi⟩
      refine ⟨.integer (.ofInt (denoted minus digits)), .integer ?_⟩
      exact Int64.toInt_ofInt_of_le lo (by omega)

/-- A number out of range is told as it is written, with its place. -/
theorem valueOf_of_excess {offset : Nat} {minus : Bool} {digits : List Char}
    {excess : Decimal.Excess} (h : excess.Of (denoted minus digits)) :
    valueOf text offset (.integer minus digits) =
      .error (.invalidLiteral (String.ofList (writeInteger minus digits))
        (.after (text.take offset)) excess) := by
  rw [valueOf, Decimal.toInt64_eq_error_iff.2 h]

/-- An entry in range is held against the keys in front of it. -/
theorem propertiesOf_cons_of_value {binds : String} {done : PropertyMap} {e : Entry}
    {rest : List Entry} {v : Value} (h : valueOf text e.offset e.literal = .ok v) :
    propertiesOf text binds done (e :: rest) =
      if done.contains (String.ofList e.key) then
        .error (.invalid (.duplicateKey binds (String.ofList e.key)))
      else propertiesOf text binds (done.insert (String.ofList e.key) v) rest := by
  rw [propertiesOf, h]
  rfl

/-- Entries are gone through from the first to the last. -/
theorem propertiesOf_append (binds : String) (done : PropertyMap) (es fs : List Entry) :
    propertiesOf text binds done (es ++ fs) =
      (propertiesOf text binds done es >>= fun t => propertiesOf text binds t fs) := by
  induction es generalizing done with
  | nil => rfl
  | cons e rest ih =>
    cases value : valueOf text e.offset e.literal with
    | error x =>
      rw [List.cons_append, propertiesOf, propertiesOf, value]
      rfl
    | ok v =>
      rw [List.cons_append, propertiesOf_cons_of_value value, propertiesOf_cons_of_value value]
      split
      next => rfl
      next => exact ih _

/-- Entries without a fault make a map with their keys. -/
theorem propertiesOf_of_faultless (text : List Char) (binds : String) {es : List Entry}
    (h : Faultless es) :
    ∃ t, propertiesOf text binds .empty es = .ok t ∧
      ∀ k, t.contains (String.ofList k) ↔ k ∈ es.map (·.key) := by
  induction es using List.reverseRecOn with
  | nil => exact ⟨.empty, rfl, fun k => iff_of_false Bool.false_ne_true List.not_mem_nil⟩
  | append_singleton es e ih =>
    obtain ⟨h, inRange, fresh⟩ := faultless_concat_iff.1 h
    obtain ⟨t, entries, keys⟩ := ih h
    obtain ⟨v, means⟩ := exists_means_iff.2 inRange
    refine ⟨t.insert (String.ofList e.key) v, ?_, fun k => ?_⟩
    · rw [propertiesOf_append, entries]
      show propertiesOf text binds t [e] = _
      rw [propertiesOf_cons_of_value (valueOf_eq_ok_iff.2 means), if_neg (mt (keys _).1 fresh)]
      rfl
    · rw [List.map_append, List.mem_append, ← keys, Table.contains, Table.get?_insert]
      by_cases eq : k = e.key
      · rw [if_pos (congrArg _ eq)]
        simp [eq]
      · rw [if_neg (mt String.ofList_inj.1 eq), Table.contains]
        simp [eq]

/-- If the first fault is a number out of range, that is what is told. -/
theorem propertiesOf_of_excess {es fs : List Entry} {e : Entry} {x : QueryError} (binds : String)
    (h : Faultless es) (fault : valueOf text e.offset e.literal = .error x) :
    propertiesOf text binds .empty (es ++ e :: fs) = .error x := by
  obtain ⟨t, entries, -⟩ := propertiesOf_of_faultless text binds h
  rw [propertiesOf_append, entries]
  show propertiesOf text binds t (e :: fs) = _
  rw [propertiesOf, fault]
  rfl

/-- If the first fault is a repeated key, that is what is told. -/
theorem propertiesOf_of_repeated {es fs : List Entry} {e : Entry} (binds : String)
    (h : Faultless es) (inRange : e.literal.InRange) (again : e.key ∈ es.map (·.key)) :
    propertiesOf text binds .empty (es ++ e :: fs) =
      .error (.invalid (.duplicateKey binds (String.ofList e.key))) := by
  obtain ⟨t, entries, keys⟩ := propertiesOf_of_faultless text binds h
  obtain ⟨v, means⟩ := exists_means_iff.2 inRange
  rw [propertiesOf_append, entries]
  show propertiesOf text binds t (e :: fs) = _
  rw [propertiesOf_cons_of_value (valueOf_eq_ok_iff.2 means), if_pos ((keys _).2 again)]

/-! ## Reading patterns -/

/-- A pattern without a fault in its entries is read. -/
theorem patternOf_of_faultless (text : List Char) {w : PatternText} (h : Faultless w.entries) :
    ∃ q, patternOf text w = .ok q := by
  obtain ⟨t, entries, -⟩ := propertiesOf_of_faultless text (String.ofList w.binds) h
  exact ⟨_, bind_eq_ok_iff.2 ⟨t, entries, rfl⟩⟩

/-- What fails first ends a traversal. -/
theorem mapM_eq_error {ε α β : Type} {f : α → Except ε β} {u v : List α} {x : α} {e : ε}
    (before : ∀ a ∈ u, ∃ b, f a = .ok b) (fault : f x = .error e) :
    (u ++ x :: v).mapM f = .error e := by
  induction u with
  | nil =>
    rw [List.nil_append, List.mapM_cons, fault]
    rfl
  | cons a rest ih =>
    obtain ⟨⟨b, first⟩, others⟩ := List.forall_mem_cons.1 before
    rw [List.cons_append, List.mapM_cons, first, ih others]
    rfl

/-- A statement without a fault in its entries means a plan. -/
theorem exists_means (h : ∀ w ∈ s.patterns, Faultless w.entries) : ∃ p, s.Means p := by
  obtain ⟨qs, patterns⟩ := exists_forall₂ fun w hw => patternOf_of_faultless [] (h w hw)
  exact ⟨_, planOf_eq_ok_iff.1 (bind_eq_ok_iff.2 ⟨qs, mapM_eq_ok_iff.2 patterns, rfl⟩)⟩

/-- What the first entry at fault is told for is told of the statement: the patterns in front of it
are read. -/
theorem planOf_of_faultlessUpTo {p : PatternText} {es : List Entry} {e : Entry} {x : QueryError}
    (first : s.FaultlessUpTo p es e)
    (fault : ∀ fs, propertiesOf text (String.ofList p.binds) .empty (es ++ e :: fs) = .error x) :
    planOf text s = .error x := by
  obtain ⟨⟨ps, qs, patterns, before⟩, ⟨fs, entries⟩, -⟩ := first
  have here : patternOf text p = .error x := by
    rw [patternOf, entries, fault]
    rfl
  rw [planOf, patterns, mapM_eq_error (fun w hw => patternOf_of_faultless text (before w hw)) here]
  rfl

end Statement

/-! ## Where literals are -/

/-- The literal of an entry stands where the entry says, in a text behind `n` characters. -/
def Entry.StandsIn (n : Nat) (t : List Char) (e : Entry) : Prop :=
  ∃ u l v, t = u ++ l ++ v ∧ e.offset = n + u.length ∧ WrittenLiteral e.offset l e.literal

namespace Entry

/-- An entry stands at its place however much text is around it. -/
theorem persists_standsIn : Persists fun n t (e : Entry) => e.StandsIn n t where
  behind := by
    rintro n u _ e ⟨u', l, v, rfl, offset, written⟩
    refine ⟨u ++ u', l, v, ?_, ?_, written⟩
    · rw [List.append_assoc, List.append_assoc, List.append_assoc]
    · rw [offset, List.length_append, Nat.add_assoc]
  before := by
    rintro n _ v e ⟨u, l, v', rfl, offset, written⟩
    exact ⟨u, l, v' ++ v, List.append_assoc _ _ _, offset, written⟩

/-- An entry stands where its literal is written. -/
theorem standsIn_of_written (n : Nat) (t : List Char) (e : Entry) (h : WrittenEntry n t e) :
    e.StandsIn n t := by
  obtain ⟨-, -, -, literal⟩ := h
  exact ⟨_, _, [], (List.append_nil _).symm, rfl, literal⟩

end Entry

/-- **Every literal is where its entry says.** -/
theorem Denotes.standsIn {t : List Char} {s : Statement} (h : Denotes t s) :
    ∀ w ∈ s.patterns, ∀ e ∈ w.entries, e.StandsIn 0 t :=
  (Entry.persists_standsIn.forall_mem PatternText.entries).patterns
    (Entry.persists_standsIn.entries Entry.standsIn_of_written) h

/-! ## Verdicts -/

section Verdicts

variable {text : List Char} {s : Statement}

/-- What is found out about the statement of a text is told of the text. -/
theorem Denotes.readChars_eq (h : Denotes text s) : Plan.readChars text = (do
    let plan ← s.planOf text
    match plan.validate with
    | .ok () => .ok plan
    | .error error => .error (.invalid error)) := by
  rewrite [Plan.readChars, Statement.read?_eq_some_iff.2 h]
  rfl

/-- The text of a statement that means a plan is read as that plan, or refused for what is invalid
in it. -/
theorem Denotes.readChars_of_means {p : Plan} (h : Denotes text s) (means : s.Means p) :
    Plan.readChars text = match p.validate with
      | .ok () => .ok p
      | .error error => .error (.invalid error) := by
  rw [h.readChars_eq, Statement.planOf_eq_ok_iff.2 means]
  rfl

/-- The text of a statement with an entry at fault is refused for the first such entry. -/
theorem Denotes.readChars_of_faultlessUpTo {p : PatternText} {es : List Entry} {e : Entry}
    {x : QueryError} (h : Denotes text s) (first : s.FaultlessUpTo p es e)
    (fault : ∀ fs, Statement.propertiesOf text (String.ofList p.binds) .empty (es ++ e :: fs) =
      .error x) : Plan.readChars text = .error x := by
  rw [h.readChars_eq, Statement.planOf_of_faultlessUpTo first fault]
  rfl

/-- What is read is the verdict. -/
theorem Verdict.readChars_eq {r : Except QueryError Plan} (v : Verdict text s r)
    (h : Denotes text s) : Plan.readChars text = r := by
  cases v with
  | @outOfRange p es e minus digits excess u v place first literal range eq offset behind =>
    refine h.readChars_of_faultlessUpTo first fun fs => ?_
    refine Statement.propertiesOf_of_excess _ first.before ?_
    rw [literal, Statement.valueOf_of_excess range, Text.Place.isBehind_iff.1 behind, ← offset, eq,
      List.append_assoc, List.take_left]
  | repeatedKey first inRange again =>
    exact h.readChars_of_faultlessUpTo first fun fs =>
      Statement.propertiesOf_of_repeated _ first.before inRange again
  | manyLabels faultless eq before many =>
    obtain ⟨p, means⟩ := Statement.exists_means faultless
    rw [h.readChars_of_means means, means.validate_of_manyLabels eq before many]
  | unbound sound eq before none =>
    obtain ⟨p, means⟩ := Statement.exists_means fun w hw => (sound w hw).1
    rw [h.readChars_of_means means,
      means.validate_of_unbound (fun w hw => (sound w hw).2) eq before none]
  | valid sound bound means =>
    rw [h.readChars_of_means means, means.validate_eq_ok_iff.2 ⟨fun w hw => (sound w hw).2, bound⟩]

/-- Only a number can be out of range, and then it is too large or too small. -/
theorem Literal.exists_excess {l : Literal} (h : ¬ l.InRange) :
    ∃ minus digits excess, l = .integer minus digits ∧
      Decimal.Excess.Of excess (denoted minus digits) := by
  cases l with
  | text => exact absurd trivial h
  | boolean => exact absurd trivial h
  | integer minus digits =>
    by_cases small : denoted minus digits < -2 ^ 63
    · exact ⟨minus, digits, .tooSmall, rfl, small⟩
    · refine ⟨minus, digits, .tooLarge, rfl, Int.not_le.1 fun large => h ⟨?_, large⟩⟩
      exact Int.not_lt.1 small

/-- A number is written in one way: its sign and its digits. -/
theorem WrittenLiteral.eq_writeInteger {n : Nat} {t digits : List Char} {minus : Bool}
    (h : WrittenLiteral n t (.integer minus digits)) : t = writeInteger minus digits := by
  cases h <;> rfl

/-- There is a verdict about every statement. -/
theorem Denotes.exists_verdict (h : Denotes text s) : ∃ r, Verdict text s r := by
  obtain faultless | ⟨ps, p, qs, patterns, before, fault⟩ :=
    exists_first (fun w => Faultless w.entries) s.patterns
  · obtain few | ⟨ps, p, qs, patterns, before, many⟩ :=
      exists_first (fun w : PatternText => w.labels.length ≤ 1) s.patterns
    · have sound := fun w hw => And.intro (faultless w hw) (few w hw)
      obtain bound | ⟨vs, v, ws, returns, before, none⟩ :=
        exists_first (fun v => ∃ w ∈ s.patterns, w.binds = v) s.returns
      · obtain ⟨p, means⟩ := Statement.exists_means faultless
        exact ⟨_, .valid sound bound means⟩
      · exact ⟨_, .unbound sound returns before fun w hw eq => none ⟨w, hw, eq⟩⟩
    · exact ⟨_, .manyLabels faultless patterns before (Nat.lt_of_not_le many)⟩
  · obtain none | ⟨es, e, fs, entries, sound, wrong⟩ := faultless_or_first p.entries
    · exact absurd none fault
    · have first : s.FaultlessUpTo p es e := ⟨⟨ps, qs, patterns, before⟩, ⟨fs, entries⟩, sound⟩
      by_cases inRange : e.literal.InRange
      · have again : e.key ∈ es.map (·.key) := by
          by_contra fresh
          exact wrong ⟨inRange, fresh⟩
        exact ⟨_, .repeatedKey first inRange again⟩
      · obtain ⟨minus, digits, excess, literal, range⟩ := Literal.exists_excess inRange
        have hp : p ∈ s.patterns := patterns ▸ List.mem_append_right _ List.mem_cons_self
        have he : e ∈ p.entries := entries ▸ List.mem_append_right _ List.mem_cons_self
        obtain ⟨u, l, v, eq, offset, written⟩ := h.standsIn p hp e he
        rw [literal] at written
        rw [written.eq_writeInteger] at eq
        exact ⟨_, .outOfRange first literal range eq (by rw [offset, Nat.zero_add])
          (Text.Place.isBehind_after u)⟩

/-- A statement is read if and only if nothing is at fault in it. -/
theorem Denotes.exists_readChars_iff (h : Denotes text s) : (∃ p, Plan.readChars text = .ok p) ↔
    (∀ w ∈ s.patterns, Faultless w.entries ∧ w.labels.length ≤ 1) ∧
      ∀ v ∈ s.returns, ∃ w ∈ s.patterns, w.binds = v := by
  constructor
  · rintro ⟨p, ok⟩
    obtain ⟨r, verdict⟩ := h.exists_verdict
    obtain rfl := (verdict.readChars_eq h).symm.trans ok
    cases verdict with
    | valid sound bound => exact ⟨sound, bound⟩
  · rintro ⟨sound, bound⟩
    obtain ⟨p, means⟩ := Statement.exists_means fun w hw => (sound w hw).1
    exact ⟨p, (Verdict.valid sound bound means).readChars_eq h⟩

end Verdicts

/-- **One fault is told, and it is settled which.** A text that is no statement is told that it is
malformed, whatever else may be wrong with it. A text that is one is told the verdict about what is
written: if several things are wrong, the first number out of range or repeated key; failing these
the first pattern with several labels; failing that the first variable that nothing binds; and if
nothing is wrong the plan. -/
theorem Plan.read_eq_iff_verdict (text : String) :
    ((∃ d, read text = .error (.malformed d)) ↔ ¬ ∃ s, Denotes text.toList s) ∧
    ∀ s, Denotes text.toList s → ∀ r, read text = r ↔ Verdict text.toList s r := by
  refine ⟨readChars_eq_malformed_iff, fun s denotes r => ⟨?_, fun v => v.readChars_eq denotes⟩⟩
  rintro rfl
  obtain ⟨r, verdict⟩ := denotes.exists_verdict
  rwa [read, verdict.readChars_eq denotes]

/-- A number out of range under a repeated key, on the second line, behind a pattern with two
labels and in front of a variable that nothing binds; and the same with the number in range. -/
theorem Plan.read_eq_iff_verdict_of_many_faults :
    (∃ s, Denotes "MATCH (m:A:B \x7bk: 'é',\n k: 9223372036854775808\x7d) RETURN x".toList s ∧
      Verdict "MATCH (m:A:B \x7bk: 'é',\n k: 9223372036854775808\x7d) RETURN x".toList s
        (.error (.invalidLiteral "9223372036854775808" ⟨2, 5⟩ .tooLarge))) ∧
    ∃ s, Denotes "MATCH (m:A:B \x7bk: 1, \x60k\x60: 2\x7d) RETURN x".toList s ∧
      Verdict "MATCH (m:A:B \x7bk: 1, \x60k\x60: 2\x7d) RETURN x".toList s
        (.error (.invalid (.duplicateKey "m" "k"))) := by
  have told : ∀ text r, Plan.read text = r → (∀ d, r ≠ .error (.malformed d)) →
      ∃ s, Denotes text.toList s ∧ Verdict text.toList s r := by
    intro text r eq wellFormed
    obtain ⟨malformed, verdict⟩ := Plan.read_eq_iff_verdict text
    have denotes : ∃ s, Denotes text.toList s := by
      by_contra none
      obtain ⟨d, complaint⟩ := malformed.2 none
      exact wellFormed d (eq.symm.trans complaint)
    obtain ⟨s, denotes⟩ := denotes
    exact ⟨s, denotes, (verdict s denotes r).1 eq⟩
  exact ⟨told _ _ rfl nofun, told _ _ rfl nofun⟩

end Query

end PropertyGraph
