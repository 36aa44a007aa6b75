import PropertyGraph.Proofs.Query.Probing

/-!
# Words, names and literals

The probes for the smallest parts of a query read just what the language says of these parts. What
tells two ways of writing apart is always the first character: a name between backticks from a plain
one, the two kinds of quotes from each other, and a text from a truth value and from an integer.
-/

namespace PropertyGraph.Query

/-! ## Classes of characters -/

/-- There are four blanks. -/
theorem isSeparator_iff {k : Char} :
    isSeparator k ↔ k = ' ' ∨ k = '\t' ∨ k = '\r' ∨ k = '\n' := by
  unfold isSeparator
  simp only [Bool.or_eq_true, decide_eq_true_iff, or_assoc]

/-- No blank is part of a word. -/
theorem not_isWordChar_of_isSeparator {k : Char} (h : isSeparator k) : isWordChar k = false := by
  obtain rfl | rfl | rfl | rfl := isSeparator_iff.1 h <;> rfl

/-- No character of a word is a blank. -/
theorem not_isSeparator_of_isWordChar {k : Char} (h : isWordChar k) : isSeparator k = false := by
  refine Bool.eq_false_iff.2 fun sep => ?_
  rw [not_isWordChar_of_isSeparator sep] at h
  exact Bool.false_ne_true h

/-- Digits are characters of words. -/
theorem isWordChar_of_isDigit {k : Char} (h : Decimal.isDigit k) : isWordChar k := by
  have digit : k.isDigit := h
  unfold isWordChar Char.isAlphanum
  rw [digit, Bool.or_true, Bool.true_or]

/-- Blanks, quotes, signs and digits all come before the letters. -/
theorem lt_of_isSeparator {k : Char} (h : isSeparator k) : k < 'A' := by
  obtain rfl | rfl | rfl | rfl := isSeparator_iff.1 h <;> decide

/-- Digits come in front of letters. -/
theorem lt_of_isDigit {k : Char} (h : Decimal.isDigit k) : k < 'A' := by
  unfold Decimal.isDigit at h
  rw [Bool.and_eq_true, decide_eq_true_iff, decide_eq_true_iff] at h
  exact Nat.lt_of_le_of_lt h.2 (by decide)

/-- What comes in front of the letters has no case. -/
theorem toLower_of_lt {k : Char} (h : k < 'A') : k.toLower = k := by
  unfold Char.toLower
  exact dif_neg fun ⟨ge, _⟩ => absurd h (Char.not_lt.2 ge)

namespace Probe

variable {r : Rule}

/-! ## Words -/

/-- A run is written with characters of its class alone. -/
theorem run1_reads (cls : Char → Bool) (solid : ∀ k, cls k → isSeparator k = false) :
    (run1 cls).Reads (fun _ t a => (t ≠ [] ∧ ∀ k ∈ t, cls k) ∧ a = t) cls cls where
  sound eq := by
    obtain ⟨path, ne, all, -⟩ := pass_run1_eq_some.1 eq
    exact ⟨_, path, ⟨ne, all⟩, rfl⟩
  complete := by
    rintro c d t _ path ⟨⟨ne, all⟩, rfl⟩ ends
    exact pass_run1_eq_some.2 ⟨path, ne, all, ends⟩
  starts := by
    rintro _ t _ ⟨⟨ne, all⟩, rfl⟩
    obtain ⟨k, s, rfl⟩ := List.exists_cons_of_ne_nil ne
    exact ⟨k, s, rfl, all k List.mem_cons_self⟩
  solid := solid _

/-- A variable is a word. -/
theorem variableName_reads : variableName.Reads WrittenWord isWordChar isWordChar :=
  (run1_reads isWordChar fun _ => not_isSeparator_of_isWordChar).rule _

/-- What a word in any mixture of cases starts with. -/
def caselessStart (word : String) (k : Char) : Bool := word.toList.head? = some k.toLower

/-- No keyword starts with what comes in front of the letters. -/
theorem caselessStart_eq_false {word : String} {k : Char} (letters : word.toList.all ('A' ≤ ·))
    (h : k < 'A') : caselessStart word k = false := by
  refine decide_eq_false fun first => ?_
  rw [toLower_of_lt h] at first
  have letter := List.all_eq_true.1 letters k (List.mem_of_mem_head? first)
  exact Char.not_lt.2 (of_decide_eq_true letter) h

/-- A keyword is written in any mixture of cases. -/
theorem caseless_reads (word : String) (ne : word.toList ≠ [])
    (letters : word.toList.all ('A' ≤ ·)) :
    (caseless word).Reads (fun _ t _ => isKeyword word t) (caselessStart word) fun _ => false where
  sound eq := pass_caseless_eq_some.1 eq
  complete path same _ := pass_caseless_eq_some.2 ⟨_, path, same⟩
  starts {n t a} same := by
    have same := of_decide_eq_true same
    cases t with
    | nil => exact absurd same.symm ne
    | cons k s => exact ⟨k, s, rfl, decide_eq_true (by rw [← same]; rfl)⟩
  solid {k} first := by
    refine Bool.eq_false_iff.2 fun sep => ?_
    rw [caselessStart_eq_false letters (lt_of_isSeparator sep)] at first
    exact Bool.false_ne_true first

/-- It stands alone: no character of a word follows it. -/
theorem keyword_reads (word : String) (ne : word.toList ≠ [])
    (letters : word.toList.all ('A' ≤ ·)) :
    (keyword r word).Reads (fun _ t _ => isKeyword word t) (caselessStart word) isWordChar :=
  ((caseless_reads word ne letters).alone fun _ h => nomatch h).rule r

/-! ## Names -/

/-- A part between two given characters, if it ends at the second only. -/
theorem enclosed_reads {k : Char} {p : Probe (List Char)} (inside : List Char → Prop)
    (solid : isSeparator k = false)
    (pass_iff : ∀ {c d a}, p.pass c = some (a, d) ↔
      c.Over a d ∧ inside a ∧ (∀ x ∈ a, decide (x ≠ k)) ∧ d.Ends (· ≠ k)) :
    (enclosed k p).Reads (fun _ t a => t = k :: a ++ [k] ∧ inside a ∧ k ∉ a) (· = k)
      fun _ => false where
  sound {c d a} eq := by
    obtain ⟨_, b, first, eq⟩ := pass_bind_eq_some.1 eq
    obtain ⟨_, b', content, eq⟩ := pass_bind_eq_some.1 eq
    obtain ⟨_, _, last, ⟨⟩⟩ := pass_bind_eq_some.1 eq
    obtain ⟨path, valid, all, -⟩ := pass_iff.1 content
    have path := ((pass_char_eq_some.1 first).append path).append (pass_char_eq_some.1 last)
    exact ⟨_, path, rfl, valid, fun mem => of_decide_eq_true (all k mem) rfl⟩
  complete := by
    rintro c d _ a path ⟨rfl, valid, notin⟩ -
    obtain ⟨b', path, last⟩ := Cursor.over_append_iff.1 path
    obtain ⟨b, first, path⟩ := (Cursor.over_append_iff (t := [k])).1 path
    have all : ∀ x ∈ a, decide (x ≠ k) := fun x mem =>
      decide_eq_true fun eq => notin (eq ▸ mem)
    -- the second of the two characters ends the run in front of it
    have ends : b'.Ends (· ≠ k) := Cursor.ends_of_over last (decide_eq_false fun ne => ne rfl)
    unfold enclosed
    rw [pass_bind_of_some (pass_char_of_over first),
      pass_bind_of_some (pass_iff.2 ⟨path, valid, all, ends⟩),
      pass_bind_of_some (pass_char_of_over last)]
    rfl
  starts := by
    rintro _ _ a ⟨rfl, -⟩
    exact ⟨k, _, rfl, decide_eq_true rfl⟩
  solid eq := by rwa [of_decide_eq_true eq]

/-- What a name starts with. -/
def nameStart (k : Char) : Bool := k = backtick || isWordChar k

/-- A name is a word, or stands in backticks. -/
theorem name_reads : name.Reads WrittenName nameStart isWordChar := by
  have quoted := enclosed_reads (p := rule .quotedName (run1 (· ≠ backtick))) (· ≠ []) (by rfl)
    pass_run1_eq_some
  have plain := (run1_reads isWordChar fun _ => not_isSeparator_of_isWordChar).rule .plainName
  have apart : ∀ k, isWordChar k → decide (k = backtick) = false := by
    intro k word
    refine decide_eq_false ?_
    rintro rfl
    exact Bool.false_ne_true word
  refine ((quoted.mono fun _ h => nomatch h).orElse plain apart).congr fun n t a => ?_
  constructor
  · rintro (⟨rfl, ne, notin⟩ | ⟨word, rfl⟩)
    · exact .quoted ne notin
    · exact .plain word
  · rintro (word | ⟨ne, notin⟩)
    · exact .inr ⟨word, rfl⟩
    · exact .inl ⟨rfl, ne, notin⟩

/-! ## Literals -/

/-- The ways of writing a text between quotes. -/
def WrittenText : Written (List Char) := fun _ t content =>
  ∃ quote, (quote = '\'' ∨ quote = '"') ∧ t = quote :: content ++ [quote] ∧ quote ∉ content

/-- A string stands between quotes of either kind, and holds the other kind only. -/
theorem quoted_reads :
    quoted.Reads WrittenText (fun k => k = '\'' || k = '"') fun _ => false := by
  have one := enclosed_reads (k := '\'') (p := rule .singleQuoted (run (· ≠ '\'')))
    (fun _ => True) (by rfl) (by simp [pass_run_eq_some])
  have other := enclosed_reads (k := '"') (p := rule .doubleQuoted (run (· ≠ '"')))
    (fun _ => True) (by rfl) (by simp [pass_run_eq_some])
  have apart : ∀ k, decide (k = '"') → decide (k = '\'') = false := by
    intro k eq
    rw [of_decide_eq_true eq]
    rfl
  refine ((one.orElse other apart).rule _).congr fun n t a => ?_
  constructor
  · rintro (⟨eq, -, notin⟩ | ⟨eq, -, notin⟩)
    · exact ⟨_, .inl rfl, eq, notin⟩
    · exact ⟨_, .inr rfl, eq, notin⟩
  · rintro ⟨quote, rfl | rfl, eq, notin⟩
    · exact .inl ⟨eq, trivial, notin⟩
    · exact .inr ⟨eq, trivial, notin⟩

/-- A truth value is one of two keywords. -/
theorem truth_reads : truth.Reads
    (fun _ t truth => isKeyword (if truth then "true" else "false") t)
    (fun k => caselessStart "true" k || caselessStart "false" k) isWordChar := by
  have yes := (caseless_reads "true" (by decide) (by decide)).map (f := fun _ => true)
  have no := (caseless_reads "false" (by decide) (by decide)).map (f := fun _ => false)
  have apart : ∀ k, caselessStart "false" k → caselessStart "true" k = false := by
    intro k first
    -- what is an `f` in lower case is no `t`
    unfold caselessStart
    rw [← of_decide_eq_true first]
    rfl
  refine (((yes.orElse no apart).alone fun _ h => nomatch h).rule _).congr fun n t a => ?_
  cases a <;> simp

/-- The ways of writing an integer. -/
def WrittenInteger : Written Literal := fun _ t literal =>
  ∃ digits, (digits ≠ [] ∧ ∀ k ∈ digits, Decimal.isDigit k) ∧
    (t = digits ∧ literal = .integer false digits ∨
      t = '-' :: digits ∧ literal = .integer true digits)

/-- A number is digits, with or without a minus sign. -/
theorem integer_reads :
    integer.Reads WrittenInteger (fun k => k = '-' || Decimal.isDigit k) isWordChar := by
  have solid : ∀ k, Decimal.isDigit k → isSeparator k = false := fun k h =>
    not_isSeparator_of_isWordChar (isWordChar_of_isDigit h)
  have digits := run1_reads Decimal.isDigit solid
  suffices h : (do
      let minus ← optional (char '-')
      let digits ← run1 Decimal.isDigit
      return Literal.integer minus.isSome digits : Probe Literal).Reads WrittenInteger
        (fun k => k = '-' || Decimal.isDigit k) Decimal.isDigit from
    (h.alone fun _ => isWordChar_of_isDigit).rule _
  refine ⟨?sound, ?complete, ?starts, ?solid⟩
  case sound =>
    intro c d a eq
    obtain ⟨minus, b, first, eq⟩ := pass_bind_eq_some.1 eq
    obtain ⟨ds, _, rest, ⟨⟩⟩ := pass_bind_eq_some.1 eq
    obtain ⟨t, path, valid, rfl⟩ := digits.sound rest
    obtain ⟨_, sign, rfl⟩ | ⟨_, rfl, rfl⟩ := pass_optional_eq_some.1 first
    · exact ⟨_, (pass_char_eq_some.1 sign).append path, _, valid, .inr ⟨rfl, rfl⟩⟩
    · exact ⟨_, path, _, valid, .inl ⟨rfl, rfl⟩⟩
  case complete =>
    rintro c d t a path ⟨ds, valid, ⟨rfl, rfl⟩ | ⟨rfl, rfl⟩⟩ ends
    · -- the first digit is no sign
      obtain ⟨k, s, rfl, digit⟩ := digits.starts (n := 0) ⟨valid, rfl⟩
      have unsigned : decide (k = '-') = false := by
        refine decide_eq_false ?_
        rintro rfl
        exact Bool.false_ne_true digit
      have absent := (char_reads (k := '-') (by rfl)).pass_eq_none
        (Cursor.ends_of_over path unsigned)
      rw [pass_bind_of_some (pass_optional_of_none absent),
        pass_bind_of_some (digits.complete path ⟨valid, rfl⟩ ends)]
      rfl
    · obtain ⟨b, sign, path⟩ := (Cursor.over_append_iff (t := ['-'])).1 path
      rw [pass_bind_of_some (pass_optional_of_some (pass_char_of_over sign)),
        pass_bind_of_some (digits.complete path ⟨valid, rfl⟩ ends)]
      rfl
  case starts =>
    rintro n t a ⟨ds, valid, ⟨rfl, rfl⟩ | ⟨rfl, rfl⟩⟩
    · obtain ⟨k, s, rfl, digit⟩ := digits.starts (n := n) ⟨valid, rfl⟩
      exact ⟨k, s, rfl, Bool.or_eq_true_iff.2 (.inr digit)⟩
    · exact ⟨'-', ds, rfl, rfl⟩
  case solid =>
    intro k first
    obtain first | first := Bool.or_eq_true_iff.1 first
    · rw [of_decide_eq_true first]
      rfl
    · exact solid k first

/-- What a literal starts with. -/
def literalStart (k : Char) : Bool :=
  (k = '\'' || k = '"') || ((caselessStart "true" k || caselessStart "false" k) ||
    (k = '-' || Decimal.isDigit k))

/-- A literal is of one of three kinds, which its first character tells apart. -/
theorem literal_reads : literal.Reads WrittenLiteral literalStart isWordChar := by
  have texts := quoted_reads.map (f := Literal.text)
  have truths := truth_reads.map (f := Literal.boolean)
  have apart₁ : ∀ k, decide (k = '-') || Decimal.isDigit k →
      (caselessStart "true" k || caselessStart "false" k) = false := by
    intro k first
    have small : k < 'A' := by
      obtain eq | digit := Bool.or_eq_true_iff.1 first
      · rw [of_decide_eq_true eq]
        decide
      · exact lt_of_isDigit digit
    rw [caselessStart_eq_false (by decide) small, caselessStart_eq_false (by decide) small]
    rfl
  have apart₂ : ∀ k, (caselessStart "true" k || caselessStart "false" k) ||
      (decide (k = '-') || Decimal.isDigit k) →
      (decide (k = '\'') || decide (k = '"')) = false := by
    intro k first
    refine Bool.eq_false_iff.2 fun eq => ?_
    obtain eq | eq := Bool.or_eq_true_iff.1 eq
    · rw [of_decide_eq_true eq] at first
      exact Bool.false_ne_true first
    · rw [of_decide_eq_true eq] at first
      exact Bool.false_ne_true first
  refine ((texts.mono fun _ h => nomatch h).orElse
    (truths.orElse integer_reads apart₁) apart₂).congr fun n t a => ?_
  constructor
  · rintro (⟨content, ⟨quote, kind, rfl, notin⟩, rfl⟩ | ⟨truth, word, rfl⟩ |
      ⟨ds, ⟨ne, valid⟩, ⟨rfl, rfl⟩ | ⟨rfl, rfl⟩⟩)
    · exact .text kind notin
    · cases truth with
      | true => exact .true word
      | false => exact .false word
    · exact .natural ne valid
    · exact .negative ne valid
  · rintro (⟨kind, notin⟩ | word | word | ⟨ne, valid⟩ | ⟨ne, valid⟩)
    · exact .inl ⟨_, ⟨_, kind, rfl, notin⟩, rfl⟩
    · exact .inr (.inl ⟨true, word, rfl⟩)
    · exact .inr (.inl ⟨false, word, rfl⟩)
    · exact .inr (.inr ⟨_, ⟨ne, valid⟩, .inl ⟨rfl, rfl⟩⟩)
    · exact .inr (.inr ⟨_, ⟨ne, valid⟩, .inr ⟨rfl, rfl⟩⟩)

end Probe

end PropertyGraph.Query
