import Mathlib.Algebra.GroupWithZero.Nat
import PropertyGraph.Proofs.Query.Parts
import PropertyGraph.Proofs.Query.Writing

/-!
# Which plans are read back

What is read has a written form (`Stands.wellFormed`), and what `Plan.write` makes of it stands for
the same plan if no string has a double quote in it. `Plan.read_text_eq_ok_iff` is that these are
all the plans that are read back.

The converse is about texts that stand for something else, or for nothing, and they need not fail
where the quote is. What settles it is the number of double quotes. A written string has at most
those of its content and two more, and the two only if its content has none; everything else has as
many however it is written. So of all texts that stand for a plan none has more double quotes than
`Plan.write` gives it, and if one has as many then no string has any (`Denotes.quotes_le`).
-/

namespace PropertyGraph.Query

/-! ## What is read has a written form -/

/-- No backtick is part of a word. -/
theorem Word.isName {w : List Char} (h : Word w) : IsName (String.ofList w) := by
  unfold IsName
  rw [String.toList_ofList]
  refine ⟨h.1, fun mem => ?_⟩
  exact Bool.false_ne_true (h.2 backtick mem)

/-- What is written as a name has a written form. -/
theorem WrittenName.isName {n : Nat} {t name : List Char} (h : WrittenName n t name) :
    IsName (String.ofList name) := by
  cases h with
  | plain word => exact word.isName
  | quoted ne notin =>
    unfold IsName
    rw [String.toList_ofList]
    exact ⟨ne, notin⟩

/-- What variables, labels and keys are written is what may be written. -/
structure PatternText.Sound (w : PatternText) : Prop where
  /-- The variable is a word. -/
  binds : Word w.binds
  /-- Every label has a written form. -/
  labels : ∀ l ∈ w.labels, IsName (String.ofList l)
  /-- Every key has a written form. -/
  keys : ∀ e ∈ w.entries, IsName (String.ofList e.key)

/-- What is written as a pattern is made of such names. -/
theorem WrittenPattern.sound (n : Nat) (t : List Char) (w : PatternText)
    (h : WrittenPattern n t w) : w.Sound where
  binds := by cases h <;> assumption
  labels := (Persists.const fun l => IsName (String.ofList l)).labels
    (fun _ _ _ name => name.isName) n t w h
  keys := (Persists.const fun e : Entry => IsName (String.ofList e.key)).entries
    (fun _ _ _ ⟨name, _, _, _⟩ => name.isName) n t w h

/-- No literal means opaque bytes. -/
theorem Literal.Means.kind_ne_bytes {l : Literal} {v : Value} (h : l.Means v) :
    v.kind ≠ .bytes := by
  cases h <;> exact nofun

/-- The pattern that such a text means has a written form, if it has one label at most. -/
theorem PatternText.Means.wellFormed {w : PatternText} {q : Pattern} (h : w.Means q)
    (sound : w.Sound) (few : q.labels.length ≤ 1) : q.WellFormed := by
  obtain ⟨binds, labels, held, same, perm⟩ := PatternText.means_iff.1 h
  have written : ∀ kv ∈ q.properties.toList, ∃ e ∈ w.entries, e.Means kv := fun kv mem =>
    (exists_mem_of_forall₂ same).2 kv (perm.mem_iff.2 mem)
  refine ⟨?binds, ?labels, few, ?keys, ?values⟩
  case binds =>
    rw [binds, String.toList_ofList]
    exact sound.binds
  case labels =>
    rw [labels]
    exact List.forall_mem_map.2 sound.labels
  case keys =>
    refine List.forall_mem_map.2 fun kv mem => ?_
    obtain ⟨e, he, key, -⟩ := written kv mem
    exact key ▸ sound.keys e he
  case values =>
    refine List.forall_mem_map.2 fun kv mem => ?_
    obtain ⟨e, -, -, value⟩ := written kv mem
    exact value.kind_ne_bytes

/-- A series is not empty. -/
theorem Series.ne_nil {α : Type} {first next : Written α} {n : Nat} {t : List Char} {as : List α}
    (h : Series first next n t as) : as ≠ [] := by
  cases h
  exact List.cons_ne_nil _ _

/-- What a text stands for has a written form, if it is valid. -/
theorem Stands.wellFormed {text : List Char} {p : Plan} (h : Stands text p)
    (valid : p.validate = .ok ()) : p.WellFormed := by
  obtain ⟨s, denotes, means⟩ := h
  obtain ⟨few, bound⟩ := Plan.validate_eq_ok_iff.1 valid
  have sound := (Persists.const PatternText.Sound).patterns WrittenPattern.sound denotes
  have words := (Persists.const Word).returns (fun _ _ _ ⟨word, eq⟩ => eq ▸ word) denotes
  have some : s.patterns ≠ [] ∧ s.returns ≠ [] := by
    obtain ⟨-, patterns, -, -, -, -, returns, -⟩ := denotes
    exact ⟨patterns.ne_nil, returns.ne_nil⟩
  obtain ⟨qs, clauses, same⟩ := means.clauses
  have mem_returns : ∀ v, v ∈ p.returns.toList ↔ v ∈ s.returns.map String.ofList :=
    means.returns.mem_iff
  refine ⟨?clauses, ?single, ?patterns, ?returns, ?words, bound⟩
  case clauses =>
    rw [clauses]
    intro none
    rw [List.map_eq_nil_iff] at none
    rw [none, List.forall₂_nil_right_iff] at same
    exact some.1 same
  case single =>
    rw [clauses]
    exact List.forall_mem_map.2 fun _ _ => rfl
  case patterns =>
    intro q hq
    obtain ⟨w, hw, means⟩ := (exists_mem_of_forall₂ means.forall₂_patterns).2 q hq
    exact means.wellFormed (sound w hw) (few q hq)
  case returns =>
    obtain ⟨v, hv⟩ := List.exists_mem_of_ne_nil _ some.2
    exact List.ne_nil_of_mem ((mem_returns _).2 (List.mem_map_of_mem hv))
  case words =>
    intro v hv
    obtain ⟨w, hw, rfl⟩ := List.mem_map.1 ((mem_returns v).1 hv)
    rw [String.toList_ofList]
    exact words w hw

/-! ## Double quotes -/

/-- The number of double quotes in a text. -/
def quotes (t : List Char) : Nat := t.count '"'

/-- Double quotes add up. -/
theorem quotes_append (t u : List Char) : quotes (t ++ u) = quotes t + quotes u :=
  List.count_append

/-- No other character counts. -/
theorem quotes_cons_of_ne {k : Char} (h : k ≠ '"') (t : List Char) : quotes (k :: t) = quotes t :=
  List.count_cons_of_ne h

/-- Two more double quotes are around a text, or none if something else is there. -/
theorem quotes_between (k : Char) (t : List Char) :
    quotes ([k] ++ t ++ [k]) = quotes t + if k = '"' then 2 else 0 := by
  have single : quotes [k] = if k = '"' then 1 else 0 := by
    rw [quotes, List.count_singleton]
    simp only [beq_iff_eq]
  rw [quotes_append, quotes_append, single]
  split <;> omega

/-- There is none among the characters of a class that does not have it. -/
theorem quotes_eq_zero {cls : Char → Bool} {t : List Char} (h : ∀ c ∈ t, cls c)
    (other : cls '"' = false) : quotes t = 0 := by
  refine List.count_eq_zero.2 fun mem => ?_
  rw [h _ mem] at other
  nomatch other

/-- There is none among blanks. -/
theorem Gap.quotes_eq {w : List Char} (h : Gap w) : quotes w = 0 := quotes_eq_zero h rfl

/-- There is none in a word. -/
theorem Word.quotes_eq {w : List Char} (h : Word w) : quotes w = 0 := quotes_eq_zero h.2 rfl

/-- There is none in a keyword, in whatever mixture of cases it is written. -/
theorem quotes_of_isKeyword {word : String} {t : List Char} (h : isKeyword word t)
    (notin : '"' ∉ word.toList) : quotes t = 0 := by
  refine List.count_eq_zero.2 fun mem => notin ?_
  rw [← of_decide_eq_true h]
  exact List.mem_map_of_mem (f := Char.toLower) mem

/-! ### Bounds and when they are reached -/

/-- A number does not exceed a bound, and reaches it only under a condition. -/
structure AtMost (number bound : Nat) (condition : Prop) : Prop where
  /-- The bound is not exceeded. -/
  le : number ≤ bound
  /-- If it is reached the condition holds. -/
  tight : bound ≤ number → condition

namespace AtMost

variable {a b x y : Nat} {P Q : Prop}

/-- Where the condition holds anyway, a bound is all that is asked. -/
theorem of_holds (h : a ≤ x) (hP : P) : AtMost a x P := ⟨h, fun _ => hP⟩

/-- The condition may be weakened. -/
theorem imp (h : AtMost a x P) (f : P → Q) : AtMost a x Q := ⟨h.le, fun ge => f (h.tight ge)⟩

/-- A sum of bounds is reached only if each of them is. -/
theorem add (h₁ : AtMost a x P) (h₂ : AtMost b y Q) : AtMost (a + b) (x + y) (P ∧ Q) := by
  obtain ⟨le₁, tight₁⟩ := h₁
  obtain ⟨le₂, tight₂⟩ := h₂
  exact ⟨Nat.add_le_add le₁ le₂, fun ge => ⟨tight₁ (by omega), tight₂ (by omega)⟩⟩

end AtMost

/-- **How many double quotes there can be in what means `b`.** There are `weight b` at most, and as
many only if `b` is `clean`. -/
def Weighs {α β : Type} (item : Written α) (means : α → β → Prop) (weight : β → Nat)
    (clean : β → Prop) : Prop :=
  ∀ n t a b, item n t a → means a b → AtMost (quotes t) (weight b) (clean b)

/-! ### Blanks and lists -/

namespace Weighs

variable {α β : Type} {item first next : Written α} {means : α → β → Prop} {weight : β → Nat}
variable {clean : β → Prop}

/-- Blanks in front change nothing. -/
theorem spaced (h : Weighs item means weight clean) :
    Weighs (Spaced item) means weight clean := by
  rintro n _ a b ⟨gap, one⟩ meant
  rw [quotes_append, gap.quotes_eq, Nat.zero_add]
  exact h _ _ a b one meant

/-- Neither does a character in front that is no double quote. -/
theorem follow (h : Weighs item means weight clean) {k : Char} (ne : k ≠ '"') :
    Weighs (Behind k item) means weight clean := by
  rintro n _ a b ⟨gap, one⟩ meant
  rw [quotes_append, quotes_cons_of_ne ne, gap.quotes_eq, Nat.zero_add]
  exact h _ _ a b one meant

/-- **Weights of a list add up.** As many double quotes as they allow are reached only if each part
reaches its own weight. -/
theorem listed (h : Weighs item means weight clean) :
    Weighs (Listed item) (List.Forall₂ means) (fun bs => (bs.map weight).sum)
      fun bs => ∀ b ∈ bs, clean b := by
  intro n t as bs list
  induction list generalizing bs with
  | nil =>
    rintro ⟨⟩
    exact .of_holds (Nat.le_refl 0) (List.forall_mem_nil _)
  | cons one _ ih =>
    rintro (_ | ⟨meant, others⟩)
    show AtMost _ (List.map weight (_ :: _)).sum _
    rw [quotes_append, List.map_cons, List.sum_cons]
    exact ((h _ _ _ _ one meant).add (ih _ others)).imp List.forall_mem_cons.2

/-- The same holds of a series. -/
theorem series (h₁ : Weighs first means weight clean) (h₂ : Weighs next means weight clean) :
    Weighs (Series first next) (List.Forall₂ means) (fun bs => (bs.map weight).sum)
      fun bs => ∀ b ∈ bs, clean b := by
  rintro n _ _ _ ⟨one, list⟩ (_ | ⟨meant, others⟩)
  show AtMost _ (List.map weight (_ :: _)).sum _
  rw [quotes_append, List.map_cons, List.sum_cons]
  exact ((h₁ _ _ _ _ one meant).add (h₂.spaced.listed _ _ _ _ list others)).imp
    List.forall_mem_cons.2

end Weighs

/-! ### Names and literals -/

/-- Writing a name adds no double quote to those in it. -/
theorem quotes_writeName (name : String) : quotes (writeName name) = quotes name.toList := by
  unfold writeName
  split
  next => rfl
  next => exact quotes_between backtick _

/-- Names have the same quotes however they are written. -/
theorem weighs_name :
    Weighs WrittenName Spells (fun name => quotes (writeName name)) fun _ => True := by
  rintro n t name _ written rfl
  refine .of_holds (Nat.le_of_eq ?_) trivial
  show _ = quotes (writeName _)
  rw [quotes_writeName, String.toList_ofList]
  cases written with
  | plain => rfl
  | quoted => exact quotes_between backtick _

/-- A string has two quotes more than its content in the text of a plan, and elsewhere no more than
its content unless there are none in this. -/
theorem weighs_literal :
    Weighs WrittenLiteral Literal.Means (fun v => quotes v.text.toList) Value.Unquoted := by
  intro n t l v written meant
  cases meant with
  | @text content =>
    have weight :
        quotes (Value.string (String.ofList content)).text.toList = quotes content + 2 := by
      rw [Value.text, String.toList_append, String.toList_append, String.toList_ofList,
        String.toList_ofList]
      exact quotes_between '"' content
    show AtMost _ (quotes (Value.string _).text.toList) _
    obtain @⟨quote, _, kind, notin⟩ := written
    have number : quotes (quote :: content ++ [quote]) =
        quotes content + if quote = '"' then 2 else 0 := quotes_between quote content
    rw [number, weight]
    refine ⟨by split <;> omega, fun reached => ?_⟩
    obtain rfl | rfl := kind
    · -- between single quotes the two are missing
      rw [if_neg (by decide)] at reached
      omega
    · show '"' ∉ (String.ofList content).toList
      rwa [String.toList_ofList]
  | boolean =>
    have none : quotes t = 0 := by
      cases written with
      | true word => exact quotes_of_isKeyword word (by decide)
      | false word => exact quotes_of_isKeyword word (by decide)
    exact .of_holds (none ▸ Nat.zero_le _) trivial
  | integer =>
    have none : quotes t = 0 := by
      cases written with
      | natural _ digits => exact quotes_eq_zero digits rfl
      | negative _ digits =>
        rw [quotes_cons_of_ne (by decide)]
        exact quotes_eq_zero digits rfl
    exact .of_holds (none ▸ Nat.zero_le _) trivial

/-! ### Patterns -/

/-- Of all ways of writing an entry none has more double quotes than that of `Plan.write`. -/
theorem weighs_entry : Weighs WrittenEntry Entry.Means (fun e => quotes (writeEntry e))
    fun e => e.2.Unquoted := by
  rintro n _ _ ⟨key, v⟩ ⟨name, gap, gap', written⟩ ⟨spelled, meant⟩
  have both := (weighs_name _ _ _ _ name spelled).add (weighs_literal _ _ _ _ written meant)
  have colon : quotes ": ".toList = 0 := rfl
  simp only [writeEntry, quotes_append, quotes_cons_of_ne (show ':' ≠ '"' by decide), gap.quotes_eq,
    gap'.quotes_eq, colon, Nat.add_zero]
  exact both.imp And.right

/-- The double quotes of texts one behind the other add up. -/
theorem quotes_flatMap {α : Type} (write : α → List Char) (as : List α) :
    quotes (as.flatMap write) = (as.map fun a => quotes (write a)).sum := List.count_flatMap

/-- Commas are no double quotes. -/
theorem quotes_joinWith {α : Type} (write : α → List Char) (as : List α) :
    quotes (joinWith ", " (as.map write)) = (as.map fun a => quotes (write a)).sum := by
  cases as with
  | nil => rfl
  | cons a rest =>
    have comma : quotes ", ".toList = 0 := rfl
    rw [List.map_cons, joinWith_cons, List.flatMap_map, quotes_append, quotes_flatMap]
    simp only [quotes_append, comma, Nat.zero_add, List.map_cons, List.sum_cons]

/-- The double quotes of a pattern are in its variable, its labels and its entries. -/
theorem Pattern.quotes_write (q : Pattern) : quotes q.write = quotes q.binds.toList +
    (q.labels.map fun l => quotes (writeName l)).sum +
    (q.properties.toList.map fun e => quotes (writeEntry e)).sum := by
  have properties : quotes (writeProperties q.properties) =
      (q.properties.toList.map fun e => quotes (writeEntry e)).sum := by
    unfold writeProperties
    split
    next empty =>
      rw [Table.isEmpty, List.isEmpty_iff] at empty
      rw [empty]
      rfl
    next =>
      rw [quotes_append, quotes_append, quotes_joinWith]
      exact (Nat.add_zero _).trans (Nat.zero_add _)
  have opening : quotes "(".toList = 0 := rfl
  have closing : quotes ")".toList = 0 := rfl
  rw [Pattern.write, quotes_append, quotes_append, quotes_append, quotes_append, properties,
    quotes_flatMap, opening, closing, Nat.zero_add, Nat.add_zero]
  simp only [quotes_cons_of_ne (show ':' ≠ '"' by decide)]

/-- Labels have the same double quotes however they are written. -/
theorem weighs_labels : Weighs WrittenLabels (List.Forall₂ Spells)
    (fun ls => (ls.map fun l => quotes (writeName l)).sum) fun ls => ∀ l ∈ ls, True :=
  (weighs_name.follow (by decide)).spaced.listed

/-- Entries have no more double quotes than `Plan.write` gives them. -/
theorem weighs_properties : Weighs WrittenProperties (List.Forall₂ Entry.Means)
    (fun held => (held.map fun e => quotes (writeEntry e)).sum)
    fun held => ∀ e ∈ held, e.2.Unquoted := by
  have closing : quotes ['\x7d'] = 0 := rfl
  rintro n _ es held (gap | ⟨gap, entries, gap'⟩) meant
  · rw [quotes_append, quotes_cons_of_ne (by decide), gap.quotes_eq, closing]
    cases meant
    exact .of_holds (Nat.le_refl 0) (List.forall_mem_nil _)
  · rw [quotes_append, quotes_append, quotes_append, quotes_cons_of_ne (by decide), gap.quotes_eq,
      gap'.quotes_eq, closing, Nat.zero_add]
    exact weighs_entry.series (weighs_entry.follow (by decide)) _ _ _ _ entries meant

/-- **Of all ways of writing a pattern none has more double quotes than that of `Plan.write`.** -/
theorem weighs_pattern : Weighs WrittenPattern PatternText.Means (fun q => quotes q.write)
    fun q => ∀ v ∈ q.properties.values, v.Unquoted := by
  intro n t w q written means
  -- the entries may be written in any order, which has no bearing on how many quotes there are
  obtain ⟨binds, labels, held, same, perm⟩ := PatternText.means_iff.1 means
  have labels := forall₂_spells_iff.2 labels.symm
  have entries : (q.properties.toList.map fun e => quotes (writeEntry e)).sum =
      (held.map fun e => quotes (writeEntry e)).sum := (perm.map _).sum_nat.symm
  have clean : (∀ e ∈ held, e.2.Unquoted) → ∀ v ∈ q.properties.values, v.Unquoted := fun h =>
    List.forall_mem_map.2 fun e he => h e (perm.mem_iff.2 he)
  show AtMost _ (quotes q.write) _
  rw [Pattern.quotes_write, entries, binds, String.toList_ofList]
  have opening : '(' ≠ '"' := by decide
  have closing : quotes [')'] = 0 := rfl
  cases written with
  | bare gap word written gap' =>
    cases same
    simp only [quotes_append, quotes_cons_of_ne opening, gap.quotes_eq, gap'.quotes_eq,
      word.quotes_eq, closing, Nat.zero_add]
    exact (weighs_labels _ _ _ _ written labels).imp fun _ => clean (List.forall_mem_nil _)
  | full gap word written gap' properties gap'' =>
    simp only [quotes_append, quotes_cons_of_ne opening, gap.quotes_eq, gap'.quotes_eq,
      gap''.quotes_eq, word.quotes_eq, closing, Nat.zero_add, Nat.add_zero]
    exact ((weighs_labels _ _ _ _ written labels).add
      (weighs_properties _ _ _ _ properties same)).imp fun h => clean h.2

/-! ### Statements -/

/-- A keyword and blanks in front of a pattern add no double quote. -/
theorem weighs_clause : Weighs WrittenClause PatternText.Means (fun q => quotes q.write)
    fun q => ∀ v ∈ q.properties.values, v.Unquoted := by
  rintro n _ w q ⟨keyword, gap, written⟩ means
  rw [quotes_append, quotes_append, quotes_of_isKeyword keyword (by decide), gap.quotes_eq,
    Nat.zero_add]
  exact weighs_pattern _ _ _ _ written means

/-- A word has no double quote. -/
theorem weighs_word : Weighs WrittenWord Spells (fun _ => 0) fun _ => True := by
  rintro n t _ v ⟨word, rfl⟩ -
  exact .of_holds (Nat.le_of_eq word.quotes_eq) trivial

/-- What is returned has no double quote. -/
theorem WrittenReturns.quotes_eq {n : Nat} {t : List Char} {vs : List (List Char)}
    (h : WrittenReturns n t vs) : quotes t = 0 := by
  have spelled : List.Forall₂ Spells vs (vs.map String.ofList) := forall₂_spells_iff.2 rfl
  have le := (weighs_word.series (weighs_word.follow (by decide)) _ _ _ _ h spelled).le
  have nothing : ((vs.map String.ofList).map fun _ => 0).sum = 0 := by
    rw [List.map_const', List.sum_replicate_nat, Nat.mul_zero]
  exact Nat.le_zero.1 (Nat.le_trans le (Nat.le_of_eq nothing))

/-- The double quotes of a clause are in its patterns. -/
theorem Clause.quotes_write (c : Clause) :
    quotes c.write = (c.patterns.map fun q => quotes q.write).sum := by
  show quotes ("MATCH ".toList ++ joinWith ", " (c.patterns.map Pattern.write) ++ " ".toList) = _
  rw [quotes_append, quotes_append, quotes_joinWith]
  exact (Nat.add_zero _).trans (Nat.zero_add _)

/-- The text of a plan has all the double quotes of its patterns. -/
theorem Plan.le_quotes_write (p : Plan) :
    (p.patterns.map fun q => quotes q.write).sum ≤ quotes p.write := by
  have clauses : quotes (p.clauses.flatMap Clause.write) =
      (p.patterns.map fun q => quotes q.write).sum := by
    rw [quotes_flatMap, Plan.patterns, List.map_flatMap, List.flatMap_def, List.sum_flatten,
      List.map_map]
    simp only [Clause.quotes_write, Function.comp_def]
  rw [Plan.write, quotes_append, quotes_append, clauses]
  omega

/-- **Of all texts that stand for a plan none has more double quotes than that of `Plan.write`**,
and one has as many only if there is none in any string. -/
theorem Denotes.quotes_le {t : List Char} {s : Statement} {p : Plan} (h : Denotes t s)
    (means : s.Means p) : AtMost (quotes t) (quotes p.write) p.Unquoted := by
  obtain @⟨w, cs, v, r, u, rs, x, patterns, returns, hw, clauses, hv, keyword, hu, -, list, hx⟩ := h
  have all := weighs_clause.series weighs_clause _ _ _ _ clauses means.forall₂_patterns
  simp only [quotes_append, hw.quotes_eq, hv.quotes_eq, hu.quotes_eq, hx.quotes_eq, list.quotes_eq,
    quotes_of_isKeyword keyword (show '"' ∉ "return".toList by decide), Nat.zero_add, Nat.add_zero]
  exact ⟨Nat.le_trans all.le p.le_quotes_write, fun ge =>
    all.tight (Nat.le_trans p.le_quotes_write ge)⟩

/-- The text of a plan has as many double quotes as itself. -/
theorem Plan.unquoted_of_stands_write {p : Plan} (h : Stands p.write p) : p.Unquoted := by
  obtain ⟨s, denotes, means⟩ := h
  exact (denotes.quotes_le means).tight (Nat.le_refl _)

/-! ## Reading back -/

namespace Plan

/-- **Exactly these plans are read back from their text**: those that have a written form and no
double quote in a string. A plan that was read from a text has a written form, so it is read back
exactly if it has no double quote in a string. -/
theorem read_text_eq_ok_iff (p : Plan) :
    (read p.text = .ok p ↔ p.WellFormed ∧ p.Unquoted) ∧
    ∀ text, read text = .ok p → (read p.text = .ok p ↔ p.Unquoted) := by
  have back : read p.text = .ok p ↔ p.WellFormed ∧ p.Unquoted := by
    rw [read, Plan.text, String.toList_ofList, readChars_eq_ok_iff]
    constructor
    · rintro ⟨stands, valid⟩
      exact ⟨stands.wellFormed valid, unquoted_of_stands_write stands⟩
    · rintro ⟨wellFormed, unquoted⟩
      exact ⟨wellFormed.stands_write unquoted, wellFormed.validate_eq_ok⟩
  -- what has been read has a written form already
  refine ⟨back, fun text eq => ?_⟩
  obtain ⟨stands, valid⟩ := readChars_eq_ok_iff.1 eq
  rw [back, and_iff_right (stands.wellFormed valid)]

/-- A text in which everything is written in another way than a plan is, and which is read back; and
one with double quotes in a string, whose plan is not, though its text stands for a plan again. -/
theorem read_text_eq_ok_iff_of_quotes :
    (∃ p, read "match(n:\x60A b\x60\x7bk:'it',\x60m n\x60:-09,t:TRUE\x7d) RETURN n,n" = .ok p ∧
      p.text = "MATCH (n:\x60A b\x60 \x7bk: \"it\", \x60m n\x60: -9, t: true\x7d) RETURN n" ∧
      read p.text = .ok p) ∧
    ∃ p, read "MATCH (n \x7bk: '\", l: \"'\x7d) RETURN n" = .ok p ∧
      p.text = "MATCH (n \x7bk: \"\", l: \"\"\x7d) RETURN n" ∧ read p.text ≠ .ok p := by
  have told : ∀ text written unquoted,
      (read text).toOption.map (fun p => (p.text, decide p.Unquoted)) = some (written, unquoted) →
      ∃ p, read text = .ok p ∧ p.text = written ∧ decide p.Unquoted = unquoted := by
    intro text written unquoted found
    cases outcome : read text with
    | error => nomatch outcome ▸ found
    | ok p =>
      rw [outcome] at found
      obtain ⟨text_eq, unquoted_eq⟩ := Prod.mk.inj (Option.some.inj found)
      exact ⟨p, rfl, text_eq, unquoted_eq⟩
  constructor
  · refine (told _ _ true ?_).imp fun p ⟨eq, text_eq, unquoted⟩ => ⟨eq, text_eq, ?_⟩
    · decide
    · exact ((read_text_eq_ok_iff p).2 _ eq).2 (of_decide_eq_true unquoted)
  · refine (told _ _ false ?_).imp fun p ⟨eq, text_eq, quoted⟩ => ⟨eq, text_eq, fun back => ?_⟩
    · decide
    · exact of_decide_eq_false quoted (((read_text_eq_ok_iff p).2 _ eq).1 back)

end Plan

end PropertyGraph.Query
