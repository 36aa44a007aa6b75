import PropertyGraph.Proofs.Query.Faults
import PropertyGraph.Proofs.Query.Likeness

/-!
# Numbers in queries

An integer literal is a numeral without a plus sign (`WrittenLiteral.integer_iff`), of any length.
Two readers may come across one: that of queries, and that of values (`Value.decode`), each with its
own way of going through the digits. `Plan.read_numeral` is that they agree. Both accept a numeral
if and only if 64 bits are enough for the number that it denotes, and take it for this number; the
reader of queries tells on which side a number is out of range, and a pattern with a numeral matches
a node with a number stored if and only if it is the same number.
-/

namespace PropertyGraph

open Decimal (Numeral figures)

/-- A numeral as a literal of a query. -/
def Decimal.Numeral.literal (m : Numeral) : Query.Literal :=
  .integer (m.sign = .minus) (figures m.digits)

namespace Query

variable {m : Numeral} {text : List Char} {s : Statement} {e : Entry}

/-! ## Numerals as literals -/

/-- A numeral denotes its number as a literal. -/
theorem denoted_numeral (m : Numeral) :
    denoted (m.sign = .minus) (figures m.digits) = m.number := by
  simp only [denoted, Numeral.number, Decimal.ofDigits_figures, decide_eq_true_eq]

/-- Written out again, the literal of a numeral without a plus has the same characters. -/
theorem writeInteger_numeral (unsigned : m.sign ≠ .plus) :
    writeInteger (m.sign = .minus) (figures m.digits) = m.chars := by
  obtain ⟨sign, digits, some_digit⟩ := m
  cases sign with
  | none => rfl
  | plus => exact absurd rfl unsigned
  | minus => rfl

/-- **The integer literals are the numerals without a plus sign.** -/
theorem WrittenLiteral.integer_iff {start : Nat} {t digits : List Char} {minus : Bool} :
    WrittenLiteral start t (.integer minus digits) ↔
      ∃ m : Numeral, m.sign ≠ .plus ∧ t = m.chars ∧ m.literal = .integer minus digits := by
  constructor
  · intro written
    cases written with
    | natural some_digit all =>
      obtain ⟨digits, rfl⟩ := Decimal.forall_isDigit_iff.1 all
      exact ⟨⟨.none, digits, Decimal.figures_ne_nil.1 some_digit⟩, nofun, rfl, rfl⟩
    | negative some_digit all =>
      obtain ⟨digits, rfl⟩ := Decimal.forall_isDigit_iff.1 all
      exact ⟨⟨.minus, digits, Decimal.figures_ne_nil.1 some_digit⟩, nofun, rfl, rfl⟩
  · rintro ⟨⟨sign, digits, some_digit⟩, unsigned, rfl, literal⟩
    obtain ⟨rfl, rfl⟩ := Literal.integer.inj literal
    have some_figure := Decimal.figures_ne_nil.2 some_digit
    cases sign with
    | none => exact .natural some_figure Decimal.isDigit_of_mem_figures
    | plus => exact absurd rfl unsigned
    | minus => exact .negative some_figure Decimal.isDigit_of_mem_figures

/-- The literal of a numeral is in range if its number is one of 64 bits with a sign. -/
theorem inRange_literal_iff :
    m.literal.InRange ↔ -2 ^ 63 ≤ m.number ∧ m.number ≤ 2 ^ 63 - 1 := by
  rw [Numeral.literal, Literal.InRange, denoted_numeral]

/-- A numeral means in a query what it is decoded to. -/
theorem means_literal_iff {v : Value} :
    m.literal.Means v ↔ Value.decodeAs .integer m.bytes = .ok v := by
  rw [Value.decodeAs_numeral_eq_ok_iff]
  constructor
  · rintro (_ | _ | value)
    exact ⟨_, rfl, by rw [value, denoted_numeral]⟩
  · rintro ⟨i, rfl, value⟩
    exact .integer (by rw [value, denoted_numeral])

/-! ## What is read -/

/-- **Nothing is at fault in a statement**, unless it is the literal of the entry `e`. -/
structure Statement.FaultlessBut (s : Statement) (e : Entry) : Prop where
  /-- No other number is out of range. -/
  inRange : ∀ w ∈ s.patterns, ∀ f ∈ w.entries, f ≠ e → f.literal.InRange
  /-- No key is repeated. -/
  distinct : ∀ w ∈ s.patterns, (w.entries.map (·.key)).Nodup
  /-- No pattern has two labels. -/
  labels : ∀ w ∈ s.patterns, w.labels.length ≤ 1
  /-- Every variable is bound. -/
  bound : ∀ v ∈ s.returns, ∃ w ∈ s.patterns, w.binds = v

/-- If nothing but one entry can be at fault, a text is read exactly if the literal of that entry is
in range. -/
theorem Statement.FaultlessBut.exists_readChars_iff (rest : s.FaultlessBut e) (h : Denotes text s)
    {w : PatternText} (hw : w ∈ s.patterns) (he : e ∈ w.entries) :
    (∃ p, Plan.readChars text = .ok p) ↔ e.literal.InRange := by
  rw [h.exists_readChars_iff]
  refine ⟨fun sound => (sound.1 w hw).1.inRange e he, fun inRange => ⟨fun x hx => ?_, rest.bound⟩⟩
  refine ⟨⟨fun f hf => ?_, rest.distinct x hx⟩, rest.labels x hx⟩
  by_cases same : f = e
  · rwa [same]
  · exact rest.inRange x hx f hf same

/-- If the literal is at fault itself, nothing in front of it is. -/
theorem Statement.FaultlessBut.exists_faultlessUpTo (rest : s.FaultlessBut e) {w : PatternText}
    (hw : w ∈ s.patterns) (he : e ∈ w.entries) (out : ¬ e.literal.InRange) :
    ∃ x es, s.FaultlessUpTo x es e := by
  obtain faultless | ⟨ps, x, qs, patterns, before, fault⟩ :=
    exists_first (fun w => Faultless w.entries) s.patterns
  · exact absurd ((faultless w hw).inRange e he) out
  · have hx : x ∈ s.patterns := patterns ▸ List.mem_append_right _ List.mem_cons_self
    obtain none | ⟨es, f, fs, entries, sound, wrong⟩ := faultless_or_first x.entries
    · exact absurd none fault
    · have hf : f ∈ x.entries := entries ▸ List.mem_append_right _ List.mem_cons_self
      have fresh : f.key ∉ es.map (·.key) := by
        have distinct := rest.distinct x hx
        rw [entries, List.map_append, List.map_cons] at distinct
        exact fun again => (List.nodup_append.1 distinct).2.2 _ again _ List.mem_cons_self rfl
      obtain rfl : f = e := by
        by_contra other
        exact wrong ⟨rest.inRange x hx f hf other, fresh⟩
      exact ⟨x, es, ⟨ps, qs, patterns, before⟩, ⟨fs, entries⟩, sound⟩

/-- What is read of an entry is what it means. -/
theorem Denotes.exists_get?_of_readChars {p : Plan} (h : Denotes text s)
    (ok : Plan.readChars text = .ok p) {k : Nat} {w : PatternText} (hw : s.patterns[k]? = some w)
    (he : e ∈ w.entries) : ∃ q v, p.patterns[k]? = some q ∧ e.literal.Means v ∧
      q.properties.get? (String.ofList e.key) = some v := by
  obtain ⟨⟨s', denotes, means⟩, -⟩ := Plan.readChars_eq_ok_iff.1 ok
  obtain rfl := h.unique denotes
  obtain ⟨same, patterns⟩ := List.forall₂_iff_get.1 means.forall₂_patterns
  obtain ⟨inside, rfl⟩ := List.getElem?_eq_some_iff.1 hw
  have inside' := same ▸ inside
  obtain ⟨v, value, held⟩ := (patterns k inside inside').held e he
  exact ⟨_, v, List.getElem?_eq_getElem inside', value, held⟩

/-! ## Where a numeral is read -/

/-- **What comes of a numeral** `m` that is the literal of an entry `e` of `w`, the `k`-th pattern
of a text. -/
structure Plan.ReadsNumeral (text : String) (s : Statement) (k : Nat) (w : PatternText) (e : Entry)
    (m : Numeral) : Prop where
  /-- If nothing else is at fault, the text is read if and only if 64 bits are enough. -/
  accepted : s.FaultlessBut e →
    ((∃ p, Plan.read text = .ok p) ↔ -2 ^ 63 ≤ m.number ∧ m.number ≤ 2 ^ 63 - 1)
  /-- Whenever the text is read, the number stands in the pattern under the key of the entry. -/
  value : ∀ p, Plan.read text = .ok p → ∃ q i, p.patterns[k]? = some q ∧
    q.properties.get? (String.ofList e.key) = some (.integer i) ∧ i.toInt = m.number
  /-- Of the nodes with a number under this key that meet all other requirements of the pattern,
  those are selected that have the same number. -/
  selected : ∀ p q, Plan.read text = .ok p → p.patterns[k]? = some q →
    ∀ (n : Node) (held : Int64), n.properties.get? (String.ofList e.key) = some (.integer held) →
      (q.filter.acceptsNode n ↔
        Filter.acceptsNode ⟨q.labels, q.encoded.erase (String.ofList e.key)⟩ n ∧
          held.toInt = m.number)
  /-- If nothing else is at fault, or at least nothing in front of it, a number out of range is told
  as it is written, with its place and the side on which it is out of range. -/
  refused : ∃ before behind place, text.toList = before ++ m.chars ++ behind ∧
    before.length = e.offset ∧ Text.Place.IsBehind place before ∧
    ((s.FaultlessBut e ∨ ∃ es, s.FaultlessUpTo w es e) →
      (2 ^ 63 - 1 < m.number → Plan.read text =
        .error (.invalidLiteral (String.ofList m.chars) place .tooLarge)) ∧
      (m.number < -2 ^ 63 → Plan.read text =
        .error (.invalidLiteral (String.ofList m.chars) place .tooSmall)))

theorem Denotes.told_numeral (h : Denotes text s) {w : PatternText} (hw : w ∈ s.patterns)
    (he : e ∈ w.entries) (unsigned : m.sign ≠ .plus) (literal : e.literal = m.literal) :
    ∃ before behind place, text = before ++ m.chars ++ behind ∧ before.length = e.offset ∧
      Text.Place.IsBehind place before ∧ ((s.FaultlessBut e ∨ ∃ es, s.FaultlessUpTo w es e) →
        ∀ excess : Decimal.Excess, excess.Of m.number → Plan.readChars text =
          .error (.invalidLiteral (String.ofList m.chars) place excess)) := by
  have chars := writeInteger_numeral unsigned
  obtain ⟨before, t, behind, eq, offset, written⟩ := h.standsIn w hw e he
  rw [literal] at written
  rw [written.eq_writeInteger, chars] at eq
  replace offset : before.length = e.offset := by rw [offset, Nat.zero_add]
  refine ⟨before, behind, _, eq, offset, Text.Place.isBehind_after before,
    fun rest excess range => ?_⟩
  have out : ¬ e.literal.InRange := by
    rw [literal, inRange_literal_iff]
    rintro ⟨low, high⟩
    cases excess with
    | tooLarge => exact Int.not_lt.2 high range
    | tooSmall => exact Int.not_lt.2 low range
  obtain ⟨x, es, first⟩ : ∃ x es, s.FaultlessUpTo x es e := by
    obtain rest | ⟨es, first⟩ := rest
    · exact rest.exists_faultlessUpTo hw he out
    · exact ⟨w, es, first⟩
  rw [← denoted_numeral] at range
  rw [← chars] at eq ⊢
  exact (Verdict.outOfRange first literal range eq offset
    (Text.Place.isBehind_after before)).readChars_eq h

theorem Denotes.readsNumeral {text : String} (h : Denotes text.toList s) {k : Nat}
    {w : PatternText} (hw : s.patterns[k]? = some w) (he : e ∈ w.entries)
    (unsigned : m.sign ≠ .plus) (literal : e.literal = m.literal) :
    Plan.ReadsNumeral text s k w e m := by
  have mem := List.mem_of_getElem? hw
  have read : ∀ p, Plan.read text = .ok p → ∃ q i, p.patterns[k]? = some q ∧
      q.properties.get? (String.ofList e.key) = some (.integer i) ∧ i.toInt = m.number := by
    intro p ok
    obtain ⟨q, v, hq, means, held⟩ := h.exists_get?_of_readChars ok hw he
    rw [literal, means_literal_iff, Value.decodeAs_numeral_eq_ok_iff] at means
    obtain ⟨i, rfl, value⟩ := means
    exact ⟨q, i, hq, held, value⟩
  obtain ⟨before, behind, place, eq, offset, here, told⟩ := h.told_numeral mem he unsigned literal
  refine ⟨fun rest => ?_, read, fun p q ok hq n held stored => ?_, before, behind, place, eq,
    offset, here, fun rest => ⟨told rest .tooLarge, told rest .tooSmall⟩⟩
  · rw [Plan.read, rest.exists_readChars_iff h mem he, literal, inRange_literal_iff]
  · obtain ⟨q', i, hq', wanted, value⟩ := read p ok
    obtain rfl := Option.some.inj (hq.symm.trans hq')
    have required : q.filter.properties.get? (String.ofList e.key) =
        some (Value.integer i).encode := by
      rw [Pattern.filter, Pattern.encoded, Table.get?_map, wanted]
      rfl
    have same : (Value.integer held).encode = (Value.integer i).encode ↔
        held.toInt = m.number := by
      rw [← value, Int64.toInt_inj]
      exact ⟨fun eq => Value.integer.inj (Value.eq_of_encode_eq rfl eq), fun eq => eq ▸ rfl⟩
    rw [Filter.acceptsNode, Filter.accepts_iff_erase required, Filter.entryMatches_iff, stored]
    simp only [Option.some.injEq, exists_eq_left', same]
    rfl

/-- **Numbers are read exactly, or not at all.** The integer literals of the language are the
numerals without a plus sign. Take one, with as many digits and zeros in front as one likes. As a
payload it is decoded if and only if 64 bits are enough for its number, and then to this number.
Wherever it is the literal of an entry of a query the same holds of reading the query, apart from
what else may be at fault in it; a stored number meets the requirement if and only if it is the same
one; and if 64 bits are too few the reader says so, and on which side. -/
theorem Plan.read_numeral :
    (∀ start t minus digits, WrittenLiteral start t (.integer minus digits) ↔
      ∃ m : Numeral, m.sign ≠ .plus ∧ t = m.chars ∧ m.literal = .integer minus digits) ∧
    Decimal.Excess.message .tooLarge = "number too large to fit in target type" ∧
    Decimal.Excess.message .tooSmall = "number too small to fit in target type" ∧
    ∀ m : Numeral, m.sign ≠ .plus →
      ((∃ v, Value.decode "integer" m.bytes = .ok v) ↔
        -2 ^ 63 ≤ m.number ∧ m.number ≤ 2 ^ 63 - 1) ∧
      (∀ v, Value.decode "integer" m.bytes = .ok v →
        ∃ i : Int64, v = .integer i ∧ i.toInt = m.number) ∧
      ∀ (text : String) s k w e, Denotes text.toList s → s.patterns[k]? = some w →
        e ∈ w.entries → e.literal = m.literal → ReadsNumeral text s k w e m := by
  have named : Kind.integer.Spelled "integer" := Kind.ofName_eq_ok_iff.1 rfl
  refine ⟨fun _ _ _ _ => WrittenLiteral.integer_iff, rfl, rfl, fun m unsigned => ⟨?_, ?_, ?_⟩⟩
  · simp only [Value.decode_eq_decodeAs named, ← means_literal_iff]
    rw [Statement.exists_means_iff, inRange_literal_iff]
  · intro v ok
    rw [Value.decode_eq_decodeAs named] at ok
    exact Value.decodeAs_numeral_eq_ok_iff.1 ok
  · exact fun text s k w e h hw he literal => h.readsNumeral hw he unsigned literal

/-- The least number with an idle zero, and the first that is too large. -/
theorem Plan.read_numeral_of_limits :
    let least : Numeral := ⟨.minus, [0, 9, 2, 2, 3, 3, 7, 2, 0, 3, 6, 8, 5, 4, 7, 7, 5, 8, 0, 8],
      by decide⟩
    let above : Numeral := ⟨.none, [9, 2, 2, 3, 3, 7, 2, 0, 3, 6, 8, 5, 4, 7, 7, 5, 8, 0, 8],
      by decide⟩
    Value.decode "integer" least.bytes = .ok (.integer Int64.minValue) ∧
    (∃ p q, read "MATCH (n \x7bk: -09223372036854775808\x7d) RETURN n" = .ok p ∧
      p.patterns[0]? = some q ∧ q.properties.get? "k" = some (.integer Int64.minValue)) ∧
    (¬ ∃ v, Value.decode "integer" above.bytes = .ok v) ∧
    ∃ place, read "MATCH (n \x7bk: 9223372036854775808\x7d) RETURN n" =
      .error (.invalidLiteral "9223372036854775808" place .tooLarge) := by
  intro least above
  -- a query that asks for nothing but one number
  let e (m : Numeral) : Entry := ⟨['k'], m.literal, 13⟩
  let w (m : Numeral) : PatternText := ⟨['n'], [], [e m]⟩
  let s (m : Numeral) : Statement := ⟨[w m], [['n']]⟩
  have rest (m : Numeral) : (s m).FaultlessBut (e m) := by
    constructor <;> simp [s, w, e]
  have denotes : Denotes "MATCH (n \x7bk: -09223372036854775808\x7d) RETURN n".toList (s least) :=
    Statement.read?_eq_some_iff.1 rfl
  have denotes' : Denotes "MATCH (n \x7bk: 9223372036854775808\x7d) RETURN n".toList (s above) :=
    Statement.read?_eq_some_iff.1 rfl
  obtain ⟨-, -, -, numerals⟩ := read_numeral
  obtain ⟨inside, number, queries⟩ := numerals least (by decide)
  obtain ⟨outside, -, queries'⟩ := numerals above (by decide)
  have low := queries _ (s least) 0 (w least) (e least) denotes rfl List.mem_cons_self rfl
  have high := queries' _ (s above) 0 (w above) (e above) denotes' rfl List.mem_cons_self rfl
  have unique : ∀ {i : Int64}, i.toInt = least.number → i = Int64.minValue :=
    fun eq => Int64.toInt_inj.1 eq
  refine ⟨?_, ?_, fun found => absurd (outside.1 found).2 (by decide), ?_⟩
  · obtain ⟨v, ok⟩ := inside.2 ⟨by decide, by decide⟩
    obtain ⟨i, rfl, eq⟩ := number v ok
    rw [ok, unique eq]
  · obtain ⟨p, ok⟩ := (low.accepted (rest least)).2 ⟨by decide, by decide⟩
    obtain ⟨q, i, hq, held, eq⟩ := low.value p ok
    exact ⟨p, q, ok, hq, unique eq ▸ held⟩
  · obtain ⟨-, -, place, -, -, -, told⟩ := high.refused
    exact ⟨place, (told (.inl (rest above))).1 (by decide)⟩

end Query

end PropertyGraph
