import PropertyGraph.Proofs.Query.Literals

/-!
# Patterns, clauses and statements

The probes for patterns, clauses and statements read just what the language says of them. The
first token behind an optional part or a list is never one that the part or another item could
start with; that is why a probe which goes on as long as it can stops where it has to.
-/

namespace PropertyGraph.Query

open Cursor

namespace Probe

variable {c d e : Cursor}

/-! ## What ends a part -/

/-- Neither a blank nor a sign between items can go on a word. -/
theorem not_isWordChar_of_sign {k : Char} (h : isWordChar k = false) (x : Char) :
    isSeparator x ∨ decide (x = k) → isWordChar x = false := by
  rintro (sep | eq)
  · exact not_isWordChar_of_isSeparator sep
  · rw [of_decide_eq_true eq, h]

/-- What comes behind blanks is no part of a word if what comes behind those is not. -/
theorem ends_isWordChar_of_blanks {k : Char} {t : List Char} (h : c.Blanks d)
    (path : d.Over (k :: t) e) (sign : isWordChar k = false) : c.Ends isWordChar :=
  h.ends (fun _ => not_isWordChar_of_isSeparator) (ends_of_over path sign)

/-- A series without a first part does not pass. -/
theorem pass_series_of_none {α : Type} {p q : Probe α} (h : p.pass c = none) :
    (series p q).pass c = none := by
  unfold series
  rw [pass_bind, h, Option.bind_none]

/-! ## Property maps -/

/-- An entry is a key, a colon and a literal, with blanks around the colon. -/
theorem propertyEntry_reads : propertyEntry.Reads WrittenEntry nameStart isWordChar where
  sound eq := by
    obtain ⟨key, c₁, first, eq⟩ := pass_bind_eq_some.1 eq
    rw [pass_blanks_bind] at eq
    obtain ⟨_, c₃, colon, eq⟩ := pass_bind_eq_some.1 eq
    rw [pass_blanks_bind, pass_bind_of_some (pass_offset _)] at eq
    obtain ⟨value, _, last, ⟨⟩⟩ := pass_bind_eq_some.1 eq
    obtain ⟨k, path₁, name⟩ := name_reads.sound first
    obtain ⟨w, gap₁, path₂⟩ := c₁.blanks_skipBlanks
    obtain ⟨v, gap₂, path₄⟩ := c₃.blanks_skipBlanks
    obtain ⟨l, path₅, literal⟩ := literal_reads.sound last
    have path := (path₁.append path₂).append ((pass_char_eq_some.1 colon).append path₄)
    rw [path.offset_eq] at literal ⊢
    exact ⟨_, path.append path₅, .mk name gap₁ gap₂ literal⟩
  complete := by
    rintro c d _ _ path ⟨name, gap₁, gap₂, literal⟩ ends
    obtain ⟨c₄, path, path₅⟩ := over_append_iff.1 path
    obtain ⟨c₂, path', tail⟩ := over_append_iff.1 path
    obtain ⟨c₁, path₁, path₂⟩ := over_append_iff.1 path'
    obtain ⟨c₃, colon, path₄⟩ := (over_append_iff (t := [':'])).1 tail
    rw [← path.offset_eq] at literal ⊢
    have blanks₁ : c₁.Blanks c₂ := ⟨_, gap₁, path₂⟩
    have blanks₂ : c₃.Blanks c₄ := ⟨_, gap₂, path₄⟩
    -- behind the key comes a blank or the colon, and neither goes on a word
    have ends₁ := ends_isWordChar_of_blanks blanks₁ colon (by rfl)
    have solid₁ := ends_of_over colon (p := isSeparator) (by rfl)
    have solid₂ := literal_reads.ends_isSeparator path₅ literal
    unfold propertyEntry
    rw [pass_rule, pass_bind_of_some ((name_reads.rule _).complete path₁ name ends₁),
      pass_bind_of_some (pass_blanks_of_ends blanks₁ solid₁),
      pass_bind_of_some (pass_char_of_over colon),
      pass_bind_of_some (pass_blanks_of_ends blanks₂ solid₂), pass_bind_of_some (pass_offset c₄),
      pass_bind_of_some (literal_reads.complete path₅ literal ends)]
    rfl
  starts := by
    rintro n _ _ ⟨name, -, -, -⟩
    obtain ⟨k, s, rfl, first⟩ := name_reads.starts name
    exact ⟨k, _, rfl, first⟩
  solid := name_reads.solid

/-- Entries stand between braces, with commas between them. -/
theorem properties_reads : properties.Reads WrittenProperties (· = '\x7b') fun _ => false where
  sound eq := by
    obtain ⟨_, c₁, left, eq⟩ := pass_bind_eq_some.1 eq
    rw [pass_blanks_bind] at eq
    obtain ⟨entries, c₃, choice, eq⟩ := pass_bind_eq_some.1 eq
    rw [pass_blanks_bind] at eq
    obtain ⟨_, _, right, ⟨⟩⟩ := pass_bind_eq_some.1 eq
    have left := pass_char_eq_some.1 left
    have right := pass_char_eq_some.1 right
    obtain ⟨es, inner, rfl⟩ | ⟨-, rfl, rfl⟩ := pass_optional_eq_some.1 choice
    · obtain ⟨t, c₂, path₂, list, blanks⟩ :=
        series_sound propertyEntry_reads (propertyEntry_reads.behind (k := ',') (by rfl)) inner
      obtain ⟨w, gap₁, path₁⟩ := c₁.blanks_skipBlanks
      obtain ⟨v, gap₂, path₃⟩ := blanks.trans c₃.blanks_skipBlanks
      have path := left.append path₁
      rw [path.offset_eq] at list
      exact ⟨_, ((path.append path₂).append path₃).append right, .entries gap₁ list gap₂⟩
    · obtain ⟨w, gap, path⟩ := c₁.blanks_skipBlanks.trans (blanks_skipBlanks _)
      exact ⟨_, (left.append path).append right, .empty gap⟩
  complete := by
    rintro c d _ es path (gap | ⟨gap₁, list, gap₂⟩) -
    · obtain ⟨c₂, path, right⟩ := over_append_iff.1 path
      obtain ⟨c₁, left, path₁⟩ := (over_append_iff (t := ['\x7b'])).1 path
      have blanks : c₁.Blanks c₂ := ⟨_, gap, path₁⟩
      have solid := ends_of_over right (p := isSeparator) (by rfl)
      -- the closing brace starts no entry
      have absent : propertyEntry.pass c₂ = none :=
        propertyEntry_reads.pass_eq_none (ends_of_over right (by rfl))
      unfold properties
      rw [pass_rule, pass_bind_of_some (pass_char_of_over left),
        pass_bind_of_some (pass_blanks_of_ends blanks solid),
        pass_bind_of_some (pass_optional_of_none (pass_series_of_none absent)),
        pass_bind_of_some (pass_blanks_of_ends (.refl c₂) solid),
        pass_bind_of_some (pass_char_of_over right)]
      rfl
    · obtain ⟨c₄, path, right⟩ := over_append_iff.1 path
      obtain ⟨c₃, path, path₃⟩ := over_append_iff.1 path
      obtain ⟨c₂, path, path₂⟩ := over_append_iff.1 path
      obtain ⟨c₁, left, path₁⟩ := (over_append_iff (t := ['\x7b'])).1 path
      rw [← path.offset_eq] at list
      have blanks₁ : c₁.Blanks c₂ := ⟨_, gap₁, path₁⟩
      have blanks₂ : c₃.Blanks c₄ := ⟨_, gap₂, path₃⟩
      have solid₁ := propertyEntry_reads.ends_of_series path₂ list
      have solid₂ := ends_of_over right (p := isSeparator) (by rfl)
      -- nor is it a comma, so the entry in front of it is the last
      have last : c₃.skipBlanks.Ends (· = ',') := by
        rw [blanks₂.skipBlanks_eq_of_ends solid₂]
        exact ends_of_over right (by rfl)
      obtain ⟨e, inner, blanks⟩ := series_complete propertyEntry_reads
        (propertyEntry_reads.behind (by rfl)) (not_isWordChar_of_sign (by rfl)) path₂ list
        (ends_isWordChar_of_blanks blanks₂ right (by rfl)) last
      unfold properties
      rw [pass_rule, pass_bind_of_some (pass_char_of_over left),
        pass_bind_of_some (pass_blanks_of_ends blanks₁ solid₁),
        pass_bind_of_some (pass_optional_of_some inner),
        pass_bind_of_some (pass_blanks_of_passed blanks blanks₂ solid₂),
        pass_bind_of_some (pass_char_of_over right)]
      rfl
  starts := by
    rintro _ _ _ (_ | _)
    · exact ⟨_, _, rfl, rfl⟩
    · exact ⟨_, _, rfl, rfl⟩
  solid eq := by
    rw [of_decide_eq_true eq]
    rfl

/-! ## Labels -/

/-- Items with blanks in front of each are a series behind the first blanks. -/
theorem listed_cons_iff {α : Type} {item : Written α} {n : Nat} {t : List Char} {a : α}
    {as : List α} : Listed (Spaced item) n t (a :: as) ↔
      ∃ w s, t = w ++ s ∧ Gap w ∧ Series item item (n + w.length) s (a :: as) := by
  constructor
  · rintro (_ | ⟨⟨gap, first⟩, others⟩)
    rw [List.length_append, ← Nat.add_assoc] at others
    exact ⟨_, _, List.append_assoc _ _ _, gap, first, others⟩
  · rintro ⟨w, _, rfl, gap, first, others⟩
    rw [Nat.add_assoc, ← List.length_append] at others
    rw [← List.append_assoc]
    exact .cons ⟨gap, first⟩ others

/-- A label stands behind a colon. -/
theorem nodeLabel_reads : nodeLabel.Reads (Behind ':' WrittenName) (· = ':') isWordChar :=
  (name_reads.rule _).behind (by rfl)

/-- What passes for labels is written as labels, be it none. -/
theorem labels_sound {labels : Option (List (List Char))}
    (eq : (optional nodeLabels).pass c.skipBlanks = some (labels, e)) :
    ∃ t d, c.Over t d ∧ WrittenLabels c.offset t (labels.getD []) ∧ d.Blanks e := by
  obtain ⟨ls, present, rfl⟩ | ⟨-, rfl, rfl⟩ := pass_optional_eq_some.1 eq
  · obtain ⟨t, d, path, list, blanks⟩ := series_sound nodeLabel_reads nodeLabel_reads present
    obtain ⟨w, gap, path'⟩ := c.blanks_skipBlanks
    rw [path'.offset_eq] at list
    obtain ⟨item, items⟩ := list
    exact ⟨_, d, path'.append path, listed_cons_iff.2 ⟨w, _, rfl, gap, item, items⟩, blanks⟩
  · exact ⟨[], c, .refl c, .nil, c.blanks_skipBlanks⟩

/-- Labels are passed to the last of them, if no further colon follows. -/
theorem labels_complete {t : List Char} {labels : List (List Char)} (path : c.Over t d)
    (list : WrittenLabels c.offset t labels) (ends : d.Ends isWordChar)
    (last : d.skipBlanks.Ends (· = ':')) :
    ∃ ls e, (optional nodeLabels).pass c.skipBlanks = some (ls, e) ∧ ls.getD [] = labels ∧
      d.Blanks e := by
  unfold WrittenLabels at list
  cases labels with
  | nil =>
    generalize c.offset = n at list
    cases list
    obtain rfl := over_nil_iff.1 path
    have absent : nodeLabels.pass d.skipBlanks = none :=
      pass_series_of_none (nodeLabel_reads.pass_eq_none last)
    exact ⟨none, _, pass_optional_of_none absent, rfl, d.blanks_skipBlanks⟩
  | cons label labels =>
    obtain ⟨w, s, rfl, gap, list⟩ := listed_cons_iff.1 list
    obtain ⟨b, path, path'⟩ := over_append_iff.1 path
    rw [← path.offset_eq] at list
    have solid := nodeLabel_reads.ends_of_series path' list
    obtain ⟨e, eq, blanks⟩ := series_complete nodeLabel_reads nodeLabel_reads
      (not_isWordChar_of_sign (by rfl)) path' list ends last
    refine ⟨some _, e, pass_optional_of_some ?_, rfl, blanks⟩
    rw [Blanks.skipBlanks_eq_of_ends ⟨w, gap, path⟩ solid]
    exact eq

/-! ## Node patterns -/

/-- The part of a node pattern in front of the property map is passed up to the token behind it. -/
theorem pass_nodePattern {w name ls v t : List Char} {labels : List (List Char)} {k : Char}
    (path : c.Over ('(' :: w ++ name ++ ls ++ v) d) (gap₁ : Gap w) (word : Word name)
    (list : WrittenLabels (c.offset + ('(' :: w ++ name).length) ls labels) (gap₂ : Gap v)
    (follow : d.Over (k :: t) e) (token : k = '\x7b' ∨ k = ')') :
    nodePattern.pass c = (do
      let entries ← optional properties
      blanks
      char ')'
      return ⟨name, labels, entries.getD []⟩ : Probe PatternText).pass d := by
  obtain ⟨c₄, path, path₄⟩ := over_append_iff.1 path
  obtain ⟨c₃, path, path₃⟩ := over_append_iff.1 path
  obtain ⟨c₂, path', path₂⟩ := over_append_iff.1 path
  obtain ⟨c₁, left, path₁⟩ := (over_append_iff (t := ['('])).1 path'
  rw [← path.offset_eq] at list
  have blanks₁ : c₁.Blanks c₂ := ⟨w, gap₁, path₁⟩
  have blanks₂ : c₄.Blanks d := ⟨v, gap₂, path₄⟩
  have solid₁ : c₂.Ends isSeparator := variableName_reads.ends_isSeparator path₂ ⟨word, rfl⟩
  have solid₂ : d.Ends isSeparator := ends_of_over follow (by obtain rfl | rfl := token <;> rfl)
  have apart := not_isWordChar_of_sign (k := ':') (by rfl)
  have ends₂ : c₄.Ends isWordChar :=
    ends_isWordChar_of_blanks blanks₂ follow (by obtain rfl | rfl := token <;> rfl)
  have ends₁ : c₃.Ends isWordChar := nodeLabel_reads.ends_of_listed apart path₃ list ends₂
  -- the token behind the labels is no colon, so there is no further label
  have last : c₄.skipBlanks.Ends (· = ':') := by
    rw [blanks₂.skipBlanks_eq_of_ends solid₂]
    exact ends_of_over follow (by obtain rfl | rfl := token <;> rfl)
  obtain ⟨labels, e', present, rfl, blanks₃⟩ := labels_complete path₃ list ends₂ last
  unfold nodePattern
  rw [pass_rule, pass_bind_of_some (pass_char_of_over left),
    pass_bind_of_some (pass_blanks_of_ends blanks₁ solid₁),
    pass_bind_of_some (variableName_reads.complete path₂ ⟨word, rfl⟩ ends₁),
    pass_bind_of_some (pass_blanks c₃), pass_bind_of_some present,
    pass_bind_of_some (pass_blanks_of_passed blanks₃ blanks₂ solid₂)]

/-- **A pattern is read as it is written**: a variable, labels and entries, of which the latter two
may be missing. -/
theorem nodePattern_reads : nodePattern.Reads WrittenPattern (· = '(') fun _ => false where
  sound eq := by
    obtain ⟨_, c₁, left, eq⟩ := pass_bind_eq_some.1 eq
    rw [pass_blanks_bind] at eq
    obtain ⟨name, c₂, binds, eq⟩ := pass_bind_eq_some.1 eq
    rw [pass_blanks_bind] at eq
    obtain ⟨labels, e, choice₁, eq⟩ := pass_bind_eq_some.1 eq
    rw [pass_blanks_bind] at eq
    obtain ⟨entries, c₅, choice₂, eq⟩ := pass_bind_eq_some.1 eq
    rw [pass_blanks_bind] at eq
    obtain ⟨_, _, right, ⟨⟩⟩ := pass_bind_eq_some.1 eq
    have left := pass_char_eq_some.1 left
    have right := pass_char_eq_some.1 right
    obtain ⟨w, gap₁, path₁⟩ := c₁.blanks_skipBlanks
    obtain ⟨_, path₂, word, rfl⟩ := variableName_reads.sound binds
    obtain ⟨ls, c₃, path₃, list, blanks⟩ := labels_sound choice₁
    have path := (left.append path₁).append path₂
    rw [path.offset_eq] at list
    have path := path.append path₃
    obtain ⟨ps, present, rfl⟩ | ⟨-, rfl, rfl⟩ := pass_optional_eq_some.1 choice₂
    · obtain ⟨v, gap₂, path₄⟩ := blanks.trans e.blanks_skipBlanks
      obtain ⟨t, path₅, map⟩ := properties_reads.sound present
      obtain ⟨x, gap₃, path₆⟩ := c₅.blanks_skipBlanks
      have path := path.append path₄
      rw [path.offset_eq] at map
      exact ⟨_, ((path.append path₅).append path₆).append right,
        .full gap₁ word list gap₂ map gap₃⟩
    · obtain ⟨v, gap₂, path₄⟩ := (blanks.trans e.blanks_skipBlanks).trans (blanks_skipBlanks _)
      exact ⟨_, (path.append path₄).append right, .bare gap₁ word list gap₂⟩
  complete := by
    rintro c d _ _ path (⟨gap₁, word, list, gap₂⟩ | ⟨gap₁, word, list, gap₂, map, gap₃⟩) -
    · obtain ⟨c₅, path, right⟩ := over_append_iff.1 path
      have absent := properties_reads.pass_eq_none (ends_of_over right (by rfl))
      have solid := ends_of_over right (p := isSeparator) (by rfl)
      rw [pass_nodePattern path gap₁ word list gap₂ right (.inr rfl),
        pass_bind_of_some (pass_optional_of_none absent),
        pass_bind_of_some (pass_blanks_of_ends (.refl c₅) solid),
        pass_bind_of_some (pass_char_of_over right)]
      rfl
    · obtain ⟨c₇, path, right⟩ := over_append_iff.1 path
      obtain ⟨c₆, path, path₆⟩ := over_append_iff.1 path
      obtain ⟨c₅, head, path₅⟩ := over_append_iff.1 path
      rw [← head.offset_eq] at map
      obtain ⟨k, s, rfl, first⟩ := properties_reads.starts map
      have solid := ends_of_over right (p := isSeparator) (by rfl)
      have present := properties_reads.complete path₅ map fun _ _ => rfl
      rw [pass_nodePattern head gap₁ word list gap₂ path₅ (.inl (of_decide_eq_true first)),
        pass_bind_of_some (pass_optional_of_some present),
        pass_bind_of_some (pass_blanks_of_ends ⟨_, gap₃, path₆⟩ solid),
        pass_bind_of_some (pass_char_of_over right)]
      rfl
  starts := by
    rintro _ _ _ (_ | _)
    · exact ⟨_, _, rfl, rfl⟩
    · exact ⟨_, _, rfl, rfl⟩
  solid eq := by
    rw [of_decide_eq_true eq]
    rfl

/-! ## Clauses -/

/-- The word that starts a clause. -/
theorem match_reads : (keyword .matchKeyword "match").Reads
    (fun _ t _ => isKeyword "match" t) (caselessStart "match") isWordChar :=
  keyword_reads _ (by decide) (by decide)

/-- The word that starts what is returned. -/
theorem return_reads : (keyword .returnKeyword "return").Reads
    (fun _ t _ => isKeyword "return" t) (caselessStart "return") isWordChar :=
  keyword_reads _ (by decide) (by decide)

/-- A clause is a keyword and a pattern. -/
theorem matchClause_reads :
    matchClause.Reads WrittenClause (caselessStart "match") fun _ => false where
  sound eq := by
    obtain ⟨_, c₁, first, eq⟩ := pass_bind_eq_some.1 eq
    rw [pass_blanks_bind] at eq
    obtain ⟨m, path₁, word⟩ := match_reads.sound first
    obtain ⟨u, gap, path₂⟩ := c₁.blanks_skipBlanks
    obtain ⟨t, path₃, pattern⟩ := nodePattern_reads.sound eq
    have path := path₁.append path₂
    rw [path.offset_eq] at pattern
    exact ⟨_, path.append path₃, .mk word gap pattern⟩
  complete := by
    rintro c d _ _ path ⟨word, gap, pattern⟩ ends
    obtain ⟨c₂, path, path₃⟩ := over_append_iff.1 path
    obtain ⟨c₁, path₁, path₂⟩ := over_append_iff.1 path
    rw [← path.offset_eq] at pattern
    have solid := nodePattern_reads.ends_isSeparator path₃ pattern
    have blanks : c₁.Blanks c₂ := ⟨_, gap, path₂⟩
    have ends₁ : c₁.Ends isWordChar := by
      obtain ⟨k, s, rfl, first⟩ := nodePattern_reads.starts pattern
      exact ends_isWordChar_of_blanks blanks path₃ (by rw [of_decide_eq_true first]; rfl)
    unfold matchClause
    rw [pass_rule, pass_bind_of_some (match_reads.complete (a := ()) path₁ word ends₁),
      pass_bind_of_some (pass_blanks_of_ends blanks solid)]
    exact nodePattern_reads.complete path₃ pattern ends
  starts := by
    rintro n _ _ ⟨word, -, -⟩
    obtain ⟨k, s, rfl, first⟩ := match_reads.starts (n := n) (a := ()) word
    exact ⟨k, _, rfl, first⟩
  solid := match_reads.solid

/-- What is returned besides the first stands behind commas. -/
theorem returns_reads : (behind ',' variableName).Reads (Behind ',' WrittenWord) (· = ',')
    isWordChar := variableName_reads.behind (by rfl)

/-- What passes as the last clause is a keyword, blanks and variables. -/
theorem returnClause_sound {names : List (List Char)}
    (eq : returnClause.pass c = some (names, e)) :
    ∃ r u t d, c.Over (r ++ u ++ t) d ∧ isKeyword "return" r ∧ Gap u ∧ u ≠ [] ∧
      WrittenReturns (c.offset + (r ++ u).length) t names ∧ d.Blanks e := by
  obtain ⟨_, c₁, first, eq⟩ := pass_bind_eq_some.1 eq
  rw [pass_blanks_bind] at eq
  obtain ⟨r, path₁, word⟩ := return_reads.sound first
  obtain ⟨u, gap, path₂⟩ := c₁.blanks_skipBlanks
  obtain ⟨t, d, path₃, list, blanks⟩ := series_sound variableName_reads returns_reads eq
  have path := path₁.append path₂
  -- without a blank the first variable would have gone on the keyword
  have ne : u ≠ [] := by
    rintro rfl
    have ends : c₁.Ends isWordChar := ends_of_alone first
    rw [over_nil_iff.1 path₂] at list path₃
    obtain ⟨item, -⟩ := list
    obtain ⟨k, s, rfl, letter⟩ := variableName_reads.starts item
    rw [ends k (by rw [path₃.rest_eq]; rfl)] at letter
    exact Bool.false_ne_true letter
  rw [path.offset_eq] at list
  exact ⟨r, u, t, d, path.append path₃, word, gap, ne, list, blanks⟩

/-- Such a clause is passed to its last variable, if no further comma follows. -/
theorem returnClause_complete {r u t : List Char} {names : List (List Char)}
    (path : c.Over (r ++ u ++ t) d) (word : isKeyword "return" r) (gap : Gap u) (ne : u ≠ [])
    (list : WrittenReturns (c.offset + (r ++ u).length) t names) (ends : d.Ends isWordChar)
    (last : d.skipBlanks.Ends (· = ',')) :
    ∃ e, returnClause.pass c = some (names, e) ∧ d.Blanks e := by
  obtain ⟨c₂, path, path₃⟩ := over_append_iff.1 path
  obtain ⟨c₁, path₁, path₂⟩ := over_append_iff.1 path
  rw [← path.offset_eq] at list
  have solid := variableName_reads.ends_of_series path₃ list
  have ends₁ : c₁.Ends isWordChar := by
    obtain ⟨k, s, rfl⟩ := List.exists_cons_of_ne_nil ne
    exact ends_of_over path₂ (not_isWordChar_of_isSeparator (gap k List.mem_cons_self))
  obtain ⟨e, eq, blanks⟩ := series_complete variableName_reads returns_reads
    (not_isWordChar_of_sign (by rfl)) path₃ list ends last
  refine ⟨e, ?_, blanks⟩
  unfold returnClause
  rw [pass_rule, pass_bind_of_some (return_reads.complete (a := ()) path₁ word ends₁),
    pass_bind_of_some (pass_blanks_of_ends ⟨_, gap, path₂⟩ solid)]
  exact eq

/-! ## Statements -/

/-- What passes as a statement is written as one. -/
theorem query_sound {s : Statement} (eq : query.pass c = some (s, e)) :
    ∃ cs v r u rs d, c.Over (cs ++ v ++ r ++ u ++ rs) d ∧ WrittenClauses c.offset cs s.patterns ∧
      Gap v ∧ isKeyword "return" r ∧ Gap u ∧ u ≠ [] ∧
      WrittenReturns (c.offset + (cs ++ v ++ r ++ u).length) rs s.returns ∧ d.Blanks e := by
  obtain ⟨patterns, c₂, first, eq⟩ := pass_bind_eq_some.1 eq
  rw [pass_blanks_bind] at eq
  obtain ⟨names, _, last, ⟨⟩⟩ := pass_bind_eq_some.1 eq
  obtain ⟨cs, c₁, path₁, clauses, blanks⟩ := series_sound matchClause_reads matchClause_reads first
  obtain ⟨v, gap₁, path₂⟩ := blanks.trans c₂.blanks_skipBlanks
  obtain ⟨r, u, rs, d, path₃, word, gap₂, ne, returns, blanks⟩ := returnClause_sound last
  have path := path₁.append path₂
  rw [path.offset_eq, Nat.add_assoc, ← List.length_append, ← List.append_assoc] at returns
  have path := path.append path₃
  rw [← List.append_assoc, ← List.append_assoc] at path
  exact ⟨cs, v, r, u, rs, d, path, clauses, gap₁, word, gap₂, ne, returns, blanks⟩

/-- A statement is passed to its end, if what follows does not prolong it. -/
theorem query_complete {cs v r u rs : List Char} {s : Statement}
    (path : c.Over (cs ++ v ++ r ++ u ++ rs) d) (clauses : WrittenClauses c.offset cs s.patterns)
    (gap₁ : Gap v) (word : isKeyword "return" r) (gap₂ : Gap u) (ne : u ≠ [])
    (returns : WrittenReturns (c.offset + (cs ++ v ++ r ++ u).length) rs s.returns)
    (ends : d.Ends isWordChar) (last : d.skipBlanks.Ends (· = ',')) :
    ∃ e, query.pass c = some (s, e) ∧ d.Blanks e := by
  rw [List.append_assoc, List.append_assoc, ← List.append_assoc r] at path
  obtain ⟨c₂, path, path₃⟩ := over_append_iff.1 path
  obtain ⟨c₁, path₁, path₂⟩ := over_append_iff.1 path
  rw [List.append_assoc, List.length_append, ← Nat.add_assoc, ← path.offset_eq] at returns
  obtain ⟨k, t, rfl, letter⟩ := return_reads.starts (n := 0) (a := ()) word
  have blanks₁ : c₁.Blanks c₂ := ⟨v, gap₁, path₂⟩
  have solid : c₂.Ends isSeparator := ends_of_over path₃ (return_reads.solid letter)
  -- `RETURN` starts otherwise than `MATCH`, so it ends the clauses
  have other : c₁.skipBlanks.Ends (caselessStart "match") := by
    rw [blanks₁.skipBlanks_eq_of_ends solid]
    refine ends_of_over path₃ (decide_eq_false ?_)
    rw [← of_decide_eq_true letter]
    decide
  obtain ⟨e₁, first, passed⟩ := series_complete matchClause_reads matchClause_reads
    (fun _ _ => rfl) path₁ clauses (fun _ _ => rfl) other
  obtain ⟨e, second, blanks⟩ := returnClause_complete path₃ word gap₂ ne returns ends last
  refine ⟨e, ?_, blanks⟩
  unfold query
  rw [pass_rule, pass_bind_of_some first,
    pass_bind_of_some (pass_blanks_of_passed passed blanks₁ solid), pass_bind_of_some second]
  rfl

end Probe

/-- **The reader accepts the language, and reads what is written.** -/
theorem Statement.read?_eq_some_iff {text : List Char} {s : Statement} :
    Statement.read? text = some s ↔ Denotes text s := by
  unfold Statement.read?
  rw [Option.map_eq_some_iff, Probe.statement, Probe.pass_rule]
  constructor
  · rintro ⟨⟨_, e⟩, eq, rfl⟩
    rw [Probe.pass_blanks_bind] at eq
    obtain ⟨s, c₃, inner, eq⟩ := Probe.pass_bind_eq_some.1 eq
    rw [Probe.pass_blanks_bind] at eq
    obtain ⟨_, _, last, ⟨⟩⟩ := Probe.pass_bind_eq_some.1 eq
    obtain ⟨rfl, nothing⟩ := Probe.pass_finish_eq_some.1 last
    obtain ⟨w, gap₁, path₁⟩ := blanks_skipBlanks ⟨0, text⟩
    obtain ⟨cs, v, r, u, rs, c₂, path₂, clauses, gap₂, word, gap₃, ne, returns, blanks⟩ :=
      Probe.query_sound inner
    obtain ⟨x, gap₄, path₃⟩ := blanks.trans c₃.blanks_skipBlanks
    have path := (path₁.append path₂).append path₃
    have start : (skipBlanks ⟨0, text⟩).offset = w.length := by rw [path₁.offset_eq, Nat.zero_add]
    rw [start] at clauses returns
    rw [← List.length_append] at returns
    have whole : text = _ := path.rest_eq
    rw [nothing, List.append_nil] at whole
    simp only [← List.append_assoc] at whole returns
    rw [whole]
    exact .mk gap₁ clauses gap₂ word gap₃ ne returns gap₄
  · rintro @⟨w, cs, v, r, u, rs, x, patterns, names, gap₁, clauses, gap₂, word, gap₃, ne, returns,
      gap₄⟩
    obtain ⟨stop, whole, nothing⟩ : ∃ stop, Over ⟨0, w ++ cs ++ v ++ r ++ u ++ rs ++ x⟩
        (w ++ (cs ++ v ++ r ++ u ++ rs) ++ x) stop ∧ stop.rest = [] :=
      ⟨⟨0 + _, []⟩, ⟨by simp only [List.append_assoc, List.append_nil], rfl⟩, rfl⟩
    obtain ⟨c₃, path, path₃⟩ := over_append_iff.1 whole
    obtain ⟨c₁, path₁, path₂⟩ := over_append_iff.1 path
    have start : c₁.offset = w.length := by rw [path₁.offset_eq, Nat.zero_add]
    simp only [List.append_assoc w] at returns
    rw [List.length_append, ← start] at returns
    rw [← start] at clauses
    have solid : c₁.Ends isSeparator := by
      obtain ⟨item, -⟩ := clauses
      obtain ⟨k, s, rfl, first⟩ := Probe.matchClause_reads.starts item
      exact ends_of_over path₂ (Probe.matchClause_reads.solid first)
    have blanks : c₃.Blanks stop := ⟨x, gap₄, path₃⟩
    -- at the end of the text nothing follows, of whatever class
    have ends {p} : stop.Ends p := fun _ eq => by
      rw [nothing] at eq
      nomatch eq
    have last : c₃.skipBlanks.Ends (· = ',') := by
      rw [blanks.skipBlanks_eq_of_ends ends]
      exact ends
    obtain ⟨e, inner, passed⟩ := Probe.query_complete (s := ⟨patterns, names⟩) path₂ clauses gap₂
      word gap₃ ne returns (blanks.ends (fun _ => not_isWordChar_of_isSeparator) ends) last
    have finish : (Probe.rule .endOfInput Probe.finish).pass stop = some ((), stop) :=
      Probe.pass_finish_eq_some.2 ⟨rfl, nothing⟩
    refine ⟨(⟨patterns, names⟩, stop), ?_, rfl⟩
    rw [Probe.pass_bind_of_some (Probe.pass_blanks_of_ends ⟨w, gap₁, path₁⟩ solid),
      Probe.pass_bind_of_some inner,
      Probe.pass_bind_of_some (Probe.pass_blanks_of_passed passed blanks ends),
      Probe.pass_bind_of_some finish]
    rfl

end PropertyGraph.Query
