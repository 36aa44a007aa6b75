import Mathlib.Data.List.Nodup
import PropertyGraph.Proofs.Query.Validity

/-!
# Writing plans

A plan is written in one particular way, with blanks where they are needed or look well. If every
part of the plan has a written form at all (`Plan.WellFormed`) and no string ends too early
(`Plan.Unquoted`), then what is written is a text that stands for the plan
(`Plan.WellFormed.stands_write`).

The lemmas are about any way of writing the parts: a text that says the right thing wherever it
stands (`Expresses`) may be put where such a thing is called for.
-/

namespace PropertyGraph

/-- No double quote is in a value. -/
def Value.Unquoted : Value → Prop
  | .string text => '"' ∉ text.toList
  | _ => True

instance (v : Value) : Decidable v.Unquoted :=
  match v with
  | .string text => inferInstanceAs (Decidable ('"' ∉ text.toList))
  | .integer _ | .boolean _ | .bytes _ => .isTrue trivial

namespace Query

/-! ## Plans that have a written form -/

/-- A label or key has a written form if it is not empty and has no backtick in it. -/
def IsName (name : String) : Prop := name.toList ≠ [] ∧ backtick ∉ name.toList

/-- **What a pattern must be to have a written form.** -/
structure Pattern.WellFormed (q : Pattern) : Prop where
  /-- The variable is a word. -/
  binds : Word q.binds.toList
  /-- Every label has a written form. -/
  labels : ∀ l ∈ q.labels, IsName l
  /-- There is one label at most. -/
  few : q.labels.length ≤ 1
  /-- Every key has a written form. -/
  keys : ∀ k ∈ q.properties.keys, IsName k
  /-- Opaque bytes have no written form. -/
  values : ∀ v ∈ q.properties.values, v.kind ≠ .bytes

/-- **What a plan must be to have a written form**, the contents of strings apart. -/
structure Plan.WellFormed (p : Plan) : Prop where
  /-- There is a clause. -/
  clauses : p.clauses ≠ []
  /-- Each clause has exactly one pattern. -/
  single : ∀ c ∈ p.clauses, c.patterns.length = 1
  /-- Every pattern has a written form. -/
  patterns : ∀ q ∈ p.patterns, q.WellFormed
  /-- A variable is returned. -/
  returns : p.returns.toList ≠ []
  /-- Every variable to return is a word. -/
  words : ∀ v ∈ p.returns.toList, Word v.toList
  /-- Every variable to return is bound by a pattern. -/
  bound : ∀ v ∈ p.returns.toList, ∃ q ∈ p.patterns, q.binds = v

/-- No double quote is in a string of a plan. -/
def Plan.Unquoted (p : Plan) : Prop :=
  ∀ q ∈ p.patterns, ∀ v ∈ q.properties.values, v.Unquoted

instance (p : Plan) : Decidable p.Unquoted :=
  inferInstanceAs (Decidable (∀ q ∈ p.patterns, ∀ v ∈ q.properties.values, v.Unquoted))

/-- A plan with a written form is valid. -/
theorem Plan.WellFormed.validate_eq_ok {p : Plan} (h : p.WellFormed) : p.validate = .ok () :=
  Plan.validate_eq_ok_iff.2 ⟨fun q hq => (h.patterns q hq).few, h.bound⟩

/-- Clauses with one pattern each are told apart by their patterns. -/
theorem Plan.clauses_eq {p : Plan} (single : ∀ c ∈ p.clauses, c.patterns.length = 1) :
    p.clauses = p.patterns.map (⟨[·]⟩) := by
  obtain ⟨clauses, returns⟩ := p
  show clauses = (clauses.flatMap (·.patterns)).map _
  induction clauses with
  | nil => rfl
  | cons c rest ih =>
    obtain ⟨one, others⟩ := List.forall_mem_cons.1 single
    obtain ⟨q, eq⟩ := List.length_eq_one_iff.1 one
    rw [List.flatMap_cons, List.map_append, ← ih others, eq]
    show c :: rest = ⟨[q]⟩ :: rest
    rw [← eq]

/-! ## Entries in any order -/

/-- What an entry means: a value under a key. -/
def Entry.Means (e : Entry) (held : String × Value) : Prop :=
  String.ofList e.key = held.1 ∧ e.literal.Means held.2

/-- Entries mean values under their keys. -/
theorem Entry.map_key_eq {es : List Entry} {held : List (String × Value)}
    (h : List.Forall₂ Entry.Means es held) :
    es.map (fun e => String.ofList e.key) = held.map (·.1) :=
  forall₂_eq_iff.1 (h.imp fun _ _ means => means.1)

/-- The entries of a written pattern are those of the property map, in some order. -/
theorem PatternText.means_iff {w : PatternText} {q : Pattern} : w.Means q ↔
    q.binds = String.ofList w.binds ∧ q.labels = w.labels.map String.ofList ∧
      ∃ held, List.Forall₂ Entry.Means w.entries held ∧ held.Perm q.properties.toList := by
  constructor
  · rintro ⟨binds, labels, distinct, present, only⟩
    have inside : ∀ e ∈ w.entries, ∃ kv, kv ∈ q.properties.toList ∧ e.Means kv := by
      intro e he
      obtain ⟨v, means, found⟩ := present e he
      exact ⟨(String.ofList e.key, v), Table.mem_toList_iff.2 found, rfl, means⟩
    obtain ⟨held, both⟩ := exists_forall₂ inside
    have same := both.imp fun _ _ h => h.2
    have member : ∀ kv ∈ held, kv ∈ q.properties.toList := by
      intro kv mem
      obtain ⟨-, -, listed, -⟩ := (exists_mem_of_forall₂ both).2 kv mem
      exact listed
    have keys := Entry.map_key_eq same
    refine ⟨binds, labels, held, same, (List.perm_ext_iff_of_nodup ?_ ?_).2 fun kv => ?_⟩
    · exact List.Nodup.of_map _ (keys ▸ distinct)
    · exact List.Nodup.of_map _ q.properties.nodup_keys
    · refine ⟨member kv, fun mem => ?_⟩
      have found := Table.mem_toList_iff.1 mem
      -- the key is written, and what is written under it is this value
      have written : kv.1 ∈ held.map (·.1) := by
        by_contra notin
        rw [only kv.1 (keys ▸ notin)] at found
        nomatch found
      obtain ⟨kv', mem', eq⟩ := List.mem_map.1 written
      have found' := Table.mem_toList_iff.1 (member kv' mem')
      rw [eq, found] at found'
      rwa [← Prod.ext eq (Option.some.inj found').symm]
  · rintro ⟨binds, labels, held, same, perm⟩
    have keys := Entry.map_key_eq same
    have listed : (held.map (·.1)).Perm q.properties.keys := perm.map _
    refine ⟨binds, labels, ?_, fun e he => ?_, fun k hk => ?_⟩
    · rw [keys]
      exact listed.nodup_iff.2 q.properties.nodup_keys
    · obtain ⟨kv, mem, key, value⟩ := (exists_mem_of_forall₂ same).1 e he
      exact ⟨kv.2, value, key ▸ Table.mem_toList_iff.1 (perm.mem_iff.1 mem)⟩
    · rw [keys, listed.mem_iff, Table.mem_keys_iff] at hk
      exact Option.eq_none_iff_forall_ne_some.2 fun v found => hk ⟨v, found⟩

/-! ## Texts that say something wherever they stand -/

/-- **What it is for a text to say something**: wherever it stands, it is a way of writing what
means this. -/
def Expresses {α β : Type} (item : Written α) (means : α → β → Prop) (t : List Char) (b : β) :
    Prop :=
  ∀ n, ∃ a, item n t a ∧ means a b

/-- What characters stand for is the text of these characters. -/
def Spells (chars : List Char) (text : String) : Prop := String.ofList chars = text

/-- Words stand for texts one by one. -/
theorem forall₂_spells_iff {words : List (List Char)} {texts : List String} :
    List.Forall₂ Spells words texts ↔ words.map String.ofList = texts := by
  rw [show Spells = fun chars text => String.ofList chars = id text from rfl, forall₂_eq_iff,
    List.map_id]

/-! ### Blanks and lists -/

namespace Expresses

variable {α β : Type} {item first next : Written α} {means : α → β → Prop}
variable {w t : List Char} {b : β} {bs : List β} {write : β → List Char}

/-- A text says the same with blanks in front. -/
theorem spaced (h : Expresses item means t b) (gap : Gap w) :
    Expresses (Spaced item) means (w ++ t) b := by
  intro n
  obtain ⟨a, one, meant⟩ := h (n + w.length)
  exact ⟨a, ⟨gap, one⟩, meant⟩

/-- It says the same behind a character and blanks. -/
theorem follow (h : Expresses item means t b) (k : Char) (gap : Gap w) :
    Expresses (Behind k item) means (k :: w ++ t) b := by
  intro n
  obtain ⟨a, one, meant⟩ := h (n + (k :: w).length)
  exact ⟨a, ⟨gap, one⟩, meant⟩

/-- A list is said by its parts, one behind the other. -/
theorem listed (h : ∀ b ∈ bs, Expresses item means (write b) b) :
    Expresses (Listed item) (List.Forall₂ means) (bs.flatMap write) bs := by
  intro n
  induction bs generalizing n with
  | nil => exact ⟨[], .nil, .nil⟩
  | cons b rest ih =>
    obtain ⟨one, others⟩ := List.forall_mem_cons.1 h
    obtain ⟨a, one, meant⟩ := one n
    obtain ⟨as, others, same⟩ := ih others (n + (write b).length)
    exact ⟨a :: as, .cons one others, .cons meant same⟩

/-- A series is said by its first part and then the others. -/
theorem series (h₁ : Expresses first means t b)
    (h₂ : ∀ b ∈ bs, Expresses (Spaced next) means (write b) b) :
    Expresses (Series first next) (List.Forall₂ means) (t ++ bs.flatMap write) (b :: bs) := by
  intro n
  obtain ⟨a, one, meant⟩ := h₁ n
  obtain ⟨as, others, same⟩ := listed h₂ (n + t.length)
  exact ⟨a :: as, ⟨one, others⟩, .cons meant same⟩

end Expresses

/-- A separator stands in front of every text but the first. -/
theorem joinWith_cons (separator : String) (t : List Char) (ts : List (List Char)) :
    joinWith separator (t :: ts) = t ++ ts.flatMap (separator.toList ++ ·) := by
  unfold joinWith
  induction ts generalizing t with
  | nil => rw [List.intercalate_singleton, List.flatMap_nil, List.append_nil]
  | cons u rest ih =>
    rw [List.intercalate_cons_cons, ih, List.flatMap_cons, List.append_assoc, List.append_assoc]

theorem Gap.blank : Gap [' '] := List.forall_mem_singleton.2 rfl

/-- What is joined with commas says one thing after the other. -/
theorem Expresses.joined {α β : Type} {item : Written α} {means : α → β → Prop} {bs : List β}
    {write : β → List Char} (ne : bs ≠ []) (h : ∀ b ∈ bs, Expresses item means (write b) b) :
    Expresses (Series item (Behind ',' item)) (List.Forall₂ means) (joinWith ", " (bs.map write))
      bs := by
  obtain ⟨b, rest, rfl⟩ := List.exists_cons_of_ne_nil ne
  obtain ⟨one, others⟩ := List.forall_mem_cons.1 h
  rw [List.map_cons, joinWith_cons, List.flatMap_map]
  exact one.series fun b hb => ((others b hb).follow ',' Gap.blank).spaced Gap.nil

/-! ### Words, names and literals -/

/-- A word says itself. -/
theorem expresses_word {v : String} (h : Word v.toList) : Expresses WrittenWord Spells v.toList v :=
  fun _ => ⟨_, ⟨h, rfl⟩, String.ofList_toList⟩

/-- A name that needs no backticks is a word. -/
theorem isPlainName_iff {name : List Char} : isPlainName name ↔ Word name := by
  unfold isPlainName Word
  rw [Bool.and_eq_true, List.all_eq_true, Bool.not_eq_true', List.isEmpty_eq_false_iff]

/-- A name that has a written form says itself, in backticks if need be. -/
theorem expresses_writeName {name : String} (h : IsName name) :
    Expresses WrittenName Spells (writeName name) name := by
  intro n
  refine ⟨name.toList, ?_, String.ofList_toList⟩
  unfold writeName
  split
  next plain => exact .plain (isPlainName_iff.1 plain)
  next => exact .quoted h.1 h.2

/-- A number says itself in decimal. -/
theorem expresses_integer (i : Int64) :
    Expresses WrittenLiteral Literal.Means (Decimal.text i).toList (.integer i) := by
  intro n
  have ne : Nat.toDigits 10 i.toInt.natAbs ≠ [] := Nat.toDigits_ne_nil
  have digits := fun c => Decimal.isDigit_of_mem_toDigits (n := i.toInt.natAbs) (c := c)
  rw [Decimal.toList_text]
  split
  next below =>
    refine ⟨_, .negative ne digits, .integer ?_⟩
    rw [denoted, if_pos rfl, Decimal.ofDigits_toDigits]
    omega
  next above =>
    refine ⟨_, .natural ne digits, .integer ?_⟩
    rw [denoted, if_neg Bool.false_ne_true, Decimal.ofDigits_toDigits]
    omega

/-- A value is read back from its text, unless it is opaque or its text ends too early. -/
theorem expresses_value {v : Value} (visible : v.kind ≠ .bytes) (unquoted : v.Unquoted) :
    Expresses WrittenLiteral Literal.Means v.text.toList v := by
  cases v with
  | string text =>
    intro n
    refine ⟨.text text.toList, ?_, ?_⟩
    · rw [Value.text, String.toList_append, String.toList_append]
      exact .text (.inr rfl) unquoted
    · have means : Literal.Means (.text text.toList) (.string (String.ofList text.toList)) := .text
      rwa [String.ofList_toList] at means
  | integer number => exact expresses_integer number
  | boolean truth =>
    intro n
    cases truth with
    | true => exact ⟨_, .true rfl, .boolean⟩
    | false => exact ⟨_, .false rfl, .boolean⟩
  | bytes payload => exact absurd rfl visible

/-! ### Patterns -/

/-- An entry is said by its key and its value. -/
theorem expresses_entry {k : String} {v : Value} {t : List Char} (key : IsName k)
    (value : Expresses WrittenLiteral Literal.Means t v) :
    Expresses WrittenEntry Entry.Means (writeName k ++ ": ".toList ++ t) (k, v) := by
  intro n
  obtain ⟨key, name, spells⟩ := expresses_writeName key n
  obtain ⟨literal, written, means⟩ := value (n + (writeName k ++ [] ++ [':', ' ']).length)
  refine ⟨⟨key, literal, n + (writeName k ++ [] ++ [':', ' ']).length⟩, ?_, spells, means⟩
  have entry := WrittenEntry.mk name Gap.nil Gap.blank written
  simpa using entry

/-- Labels are said one behind the other, each behind a colon. -/
theorem expresses_labels {labels : List String} (h : ∀ l ∈ labels, IsName l) :
    Expresses WrittenLabels (List.Forall₂ Spells) (labels.flatMap fun l => ':' :: writeName l)
      labels :=
  .listed fun l hl => ((expresses_writeName (h l hl)).follow ':' Gap.nil).spaced Gap.nil

/-- Entries are said between braces, in whatever order they come. -/
theorem expresses_properties {held : List (String × Value)} {write : String × Value → List Char}
    (ne : held ≠ []) (h : ∀ e ∈ held, Expresses WrittenEntry Entry.Means (write e) e) :
    Expresses WrittenProperties (List.Forall₂ Entry.Means)
      ('\x7b' :: joinWith ", " (held.map write) ++ ['\x7d']) held := by
  intro n
  obtain ⟨es, written, means⟩ := Expresses.joined ne h (n + ['\x7b'].length)
  refine ⟨es, ?_, means⟩
  have properties := WrittenProperties.entries Gap.nil written Gap.nil
  simpa using properties

/-- A pattern as written in a query, with its values written in a given way. -/
def Pattern.writeBy (value : Value → List Char) (q : Pattern) : List Char :=
  "(".toList ++ q.binds.toList ++ q.labels.flatMap (fun label => ':' :: writeName label) ++
    (if q.properties.isEmpty then []
    else " \x7b".toList ++ joinWith ", " (q.properties.toList.map fun e =>
      writeName e.1 ++ ": ".toList ++ value e.2) ++ "\x7d".toList) ++ ")".toList

/-- A pattern is written with the text of each value. -/
theorem Pattern.writeBy_text (q : Pattern) : q.writeBy (fun v => v.text.toList) = q.write := by
  rw [writeBy, write, writeProperties]
  rfl

/-- A pattern is read back however its values are written, if they are read back. -/
theorem Pattern.expresses_writeBy {value : Value → List Char} {q : Pattern} (h : q.WellFormed)
    (values : ∀ v ∈ q.properties.values, Expresses WrittenLiteral Literal.Means (value v) v) :
    Expresses WrittenPattern PatternText.Means (q.writeBy value) q := by
  intro n
  -- the text of the labels stands behind the parenthesis and the variable
  obtain ⟨labels, written, spelled⟩ :=
    expresses_labels h.labels (n + ('(' :: [] ++ q.binds.toList).length)
  have binds : q.binds = String.ofList q.binds.toList := String.ofList_toList.symm
  have labels_eq := (forall₂_spells_iff.1 spelled).symm
  unfold Pattern.writeBy
  split
  next empty =>
    rw [Table.isEmpty, List.isEmpty_iff] at empty
    refine ⟨⟨q.binds.toList, labels, []⟩, ?_,
      PatternText.means_iff.2 ⟨binds, labels_eq, [], .nil, empty ▸ .nil⟩⟩
    have pattern := WrittenPattern.bare Gap.nil h.binds written Gap.nil
    simpa using pattern
  next some =>
    rw [Table.isEmpty, List.isEmpty_iff] at some
    have entries : ∀ e ∈ q.properties.toList, Expresses WrittenEntry Entry.Means
        (writeName e.1 ++ ": ".toList ++ value e.2) e := by
      intro e he
      exact expresses_entry (h.keys _ (List.mem_map_of_mem he))
        (values _ (List.mem_map_of_mem he))
    obtain ⟨es, properties, means⟩ := expresses_properties some entries
      (n + ('(' :: [] ++ q.binds.toList ++
        q.labels.flatMap (fun l => ':' :: writeName l) ++ [' ']).length)
    refine ⟨⟨q.binds.toList, labels, es⟩, ?_,
      PatternText.means_iff.2 ⟨binds, labels_eq, _, means, .refl _⟩⟩
    have pattern := WrittenPattern.full Gap.nil h.binds written Gap.blank properties Gap.nil
    simpa using pattern

/-- A pattern is read back from its text. -/
theorem Pattern.expresses_write {q : Pattern} (h : q.WellFormed)
    (unquoted : ∀ v ∈ q.properties.values, v.Unquoted) :
    Expresses WrittenPattern PatternText.Means q.write q := by
  rw [← writeBy_text]
  exact expresses_writeBy h fun v hv => expresses_value (h.values v hv) (unquoted v hv)

/-! ## Plans -/

/-- Where nothing repeats, nothing is dropped. -/
theorem eraseDups_of_nodup {texts : List String} (h : texts.Nodup) : texts.eraseDups = texts := by
  induction texts with
  | nil => rfl
  | cons a as ih =>
    obtain ⟨notin, nodup⟩ := List.nodup_cons.1 h
    have same : (as.filter fun b => !b == a) = as := by
      refine List.filter_eq_self.2 fun b hb => ?_
      rw [Bool.not_eq_true', beq_eq_false_iff_ne]
      exact fun eq => notin (eq ▸ hb)
    rw [List.eraseDups_cons, same, ih nodup]

/-- Texts that are kept without repeats list themselves. -/
theorem Distinct.lists_toList (d : Distinct) : d.Lists d.toList := by
  obtain ⟨texts, nodup⟩ := d
  refine Distinct.lists_iff.2 ?_
  unfold Distinct.ofList
  congr
  exact (eraseDups_of_nodup nodup).symm

/-- What stands behind each part may as well stand in front of the next. -/
theorem flatMap_concat_cons {α : Type} (f : α → List Char) (k : Char) (a : α) (as : List α) :
    ((a :: as).flatMap fun a => f a ++ [k]) = f a ++ (as.flatMap fun a => k :: f a) ++ [k] := by
  induction as generalizing a with
  | nil => simp
  | cons b rest ih =>
    rw [List.flatMap_cons, ih, List.flatMap_cons]
    simp

/-- A clause of one pattern is a keyword, the pattern and a blank. -/
theorem Clause.write_singleton (q : Pattern) :
    (Clause.mk [q]).write = "MATCH ".toList ++ q.write ++ [' '] := by
  show "MATCH ".toList ++ joinWith ", " [q.write] ++ " ".toList = _
  rw [joinWith, List.intercalate_singleton]
  rfl

namespace Plan.WellFormed

variable {p : Plan}

/-- A plan with a written form has a pattern. -/
theorem patterns_ne_nil (h : p.WellFormed) : p.patterns ≠ [] := by
  intro none
  have eq := Plan.clauses_eq h.single
  rw [none] at eq
  exact h.clauses eq

/-- However the patterns are written, the whole stands for the plan if the blanks and commas between
the parts are those of the text of a plan. -/
theorem stands {write : Pattern → List Char} (h : p.WellFormed)
    (patterns : ∀ q ∈ p.patterns, Expresses WrittenPattern PatternText.Means (write q) q) :
    Stands (p.patterns.flatMap (fun q => "MATCH ".toList ++ write q ++ [' ']) ++ "RETURN ".toList ++
      joinWith ", " (p.returns.toList.map String.toList)) p := by
  have clause : ∀ q ∈ p.patterns,
      Expresses WrittenClause PatternText.Means ("MATCH ".toList ++ write q) q := by
    intro q hq n
    obtain ⟨w, written, means⟩ := patterns q hq (n + ("MATCH".toList ++ [' ']).length)
    exact ⟨w, ⟨rfl, Gap.blank, written⟩, means⟩
  obtain ⟨q, qs, eq⟩ := List.exists_cons_of_ne_nil h.patterns_ne_nil
  have single := Plan.clauses_eq h.single
  rw [eq] at clause single ⊢
  obtain ⟨first, others⟩ := List.forall_mem_cons.1 clause
  -- the blank behind a clause is taken for the blank in front of the next
  obtain ⟨ws, clauses, means⟩ :=
    (first.series fun q hq => (others q hq).spaced Gap.blank) ([] : List Char).length
  obtain ⟨vs, returns, spelled⟩ := Expresses.joined h.returns
    (fun v hv => expresses_word (h.words v hv))
    ([] ++ ("MATCH ".toList ++ write q ++
      qs.flatMap fun q => [' '] ++ ("MATCH ".toList ++ write q)) ++ [' '] ++ "RETURN".toList ++
      [' ']).length
  refine ⟨⟨ws, vs⟩, ?_, ⟨_, single, means⟩, ?_⟩
  · rw [flatMap_concat_cons]
    have denotes := Denotes.mk Gap.nil clauses Gap.blank (r := "RETURN".toList) rfl Gap.blank
      (List.cons_ne_nil _ _) returns Gap.nil
    simpa using denotes
  · rw [forall₂_spells_iff.1 spelled]
    exact p.returns.lists_toList

/-- **A plan is read back from its text** if it has a written form and no double quote in it. -/
theorem stands_write (h : p.WellFormed) (unquoted : p.Unquoted) : Stands p.write p := by
  have clauses : p.clauses.flatMap Clause.write =
      p.patterns.flatMap fun q => "MATCH ".toList ++ q.write ++ [' '] := by
    rw [Plan.clauses_eq h.single, List.flatMap_map]
    simp only [Clause.write_singleton]
  rw [Plan.write, clauses]
  exact h.stands fun q hq => Pattern.expresses_write (h.patterns q hq) (unquoted q hq)

end Plan.WellFormed

end Query

end PropertyGraph
