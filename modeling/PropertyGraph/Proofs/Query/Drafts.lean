import PropertyGraph.Proofs.Query.Writing
import PropertyGraph.Query.Draft

/-!
# The drafts of a text

Every text of the language is laid out from a draft (`Denotes.exists_draft`), and what a draft is
laid out as is a text of the language, wherever the blanks are (`Draft.LaidOut.denotes`). The
statement of the text is that of the draft except for where its literals are.

Both are shown rule by rule in one go: `Drafts` says of a rule and a kind of drafts that they belong
together, with blanks in front.
-/

namespace PropertyGraph.Query

/-! ## Laying out tokens -/

section Laid

variable {tokens tokens' : List (List Char)} {t u w : List Char}

/-- Tokens are laid out one after the other, with blanks in front of each. -/
theorem laid_cons_iff : Laid (t :: tokens) u ↔
    ∃ w rest, u = w ++ t ++ rest ∧ Gap w ∧ Laid tokens rest := by
  constructor
  · rintro (_ | ⟨gap, others⟩)
    exact ⟨_, _, rfl, gap, others⟩
  · rintro ⟨w, rest, rfl, gap, others⟩
    exact .cons gap others

/-- One token is laid out with blanks in front. -/
theorem laid_singleton_iff : Laid [t] u ↔ ∃ w, u = w ++ t ∧ Gap w := by
  rw [laid_cons_iff]
  constructor
  · rintro ⟨w, _, rfl, gap, ⟨⟩⟩
    exact ⟨w, List.append_nil _, gap⟩
  · rintro ⟨w, rfl, gap⟩
    exact ⟨w, [], (List.append_nil _).symm, gap, .nil⟩

/-- Where tokens are laid out, so is the first part of them and the rest. -/
theorem laid_append_iff : Laid (tokens ++ tokens') u ↔
    ∃ v v', u = v ++ v' ∧ Laid tokens v ∧ Laid tokens' v' := by
  induction tokens generalizing u with
  | nil =>
    constructor
    · exact fun laid => ⟨[], u, rfl, .nil, laid⟩
    · rintro ⟨_, v', rfl, ⟨⟩, laid⟩
      exact laid
  | cons t rest ih =>
    rw [List.cons_append, laid_cons_iff]
    simp only [ih]
    constructor
    · rintro ⟨w, _, rfl, gap, v, v', rfl, first, second⟩
      exact ⟨_, v', (List.append_assoc _ _ _).symm, .cons gap first, second⟩
    · rintro ⟨_, v', rfl, _ | ⟨gap, first⟩, second⟩
      exact ⟨_, _, List.append_assoc _ _ _, gap, _, v', rfl, first, second⟩

theorem Laid.append {v v' : List Char} (h : Laid tokens v) (h' : Laid tokens' v') :
    Laid (tokens ++ tokens') (v ++ v') := laid_append_iff.2 ⟨v, v', rfl, h, h'⟩

theorem laid_singleton (gap : Gap w) : Laid [t] (w ++ t) := laid_singleton_iff.2 ⟨w, rfl, gap⟩

/-- Tokens are laid out by giving what stands in front of each. -/
theorem laid_flatMap (parts : List (List Char × List Char)) (gaps : ∀ p ∈ parts, Gap p.1) :
    Laid (parts.map (·.2)) (parts.flatMap fun p => p.1 ++ p.2) := by
  induction parts with
  | nil => exact .nil
  | cons p rest ih =>
    obtain ⟨gap, others⟩ := List.forall_mem_cons.1 gaps
    rw [List.map_cons, List.flatMap_cons]
    exact .cons gap (ih others)

end Laid

/-! ## Rules and drafts -/

/-- **A rule and a kind of drafts belong together**: what is written by the rule is laid out from
some draft, with any blanks in front; what is laid out from a draft is written by the rule, wherever
it stands; and what it says is the same. -/
structure Drafts {α δ γ : Type} (item : Written α) (tokens : δ → List (List Char)) (reading : α → γ)
    (spelling : δ → γ) : Prop where
  /-- A text has a draft. -/
  exists_draft : ∀ {n t a}, item n t a → ∃ d, (∀ w, Gap w → Laid (tokens d) (w ++ t)) ∧
    reading a = spelling d
  /-- A draft has texts of the rule only. -/
  written : ∀ {d t}, Laid (tokens d) t → ∃ w u, t = w ++ u ∧ Gap w ∧
    Expresses item (fun a d => reading a = spelling d) u d

namespace Drafts

variable {α δ γ : Type} {item first next : Written α} {tokens tokens' : δ → List (List Char)}
variable {reading : α → γ} {spelling : δ → γ} {n : Nat} {t : List Char}

/-- A rule for a token. -/
theorem ofToken {token : δ → List Char}
    (exists_draft : ∀ {n t a}, item n t a → ∃ d, token d = t ∧ reading a = spelling d)
    (written : ∀ d, Expresses item (fun a d => reading a = spelling d) (token d) d) :
    Drafts item (fun d => [token d]) reading spelling where
  exists_draft := by
    intro n t a one
    obtain ⟨d, rfl, eq⟩ := exists_draft one
    exact ⟨d, fun w gap => laid_singleton gap, eq⟩
  written := by
    intro d t laid
    obtain ⟨w, rfl, gap⟩ := laid_singleton_iff.1 laid
    exact ⟨w, token d, rfl, gap, written d⟩

/-- A sign in front is a token of its own. -/
theorem follow (h : Drafts item tokens reading spelling) (k : Char) :
    Drafts (Behind k item) (fun d => [k] :: tokens d) reading spelling where
  exists_draft := by
    rintro n _ a ⟨gap, one⟩
    obtain ⟨d, laid, eq⟩ := h.exists_draft one
    refine ⟨d, fun w gap' => ?_, eq⟩
    have whole := Laid.cons (t := [k]) gap' (laid _ gap)
    simpa using whole
  written := by
    intro d t laid
    obtain ⟨w, rest, rfl, gap, laid⟩ := laid_cons_iff.1 laid
    obtain ⟨w', u, rfl, gap', one⟩ := h.written laid
    exact ⟨w, _, List.append_assoc _ _ _, gap, one.follow k gap'⟩

/-- What is written as a list is a list of drafts laid out. -/
theorem exists_listed (h : Drafts item tokens reading spelling) {as : List α}
    (list : Listed (Spaced item) n t as) :
    ∃ ds : List δ, Laid (ds.flatMap tokens) t ∧ as.map reading = ds.map spelling := by
  induction list with
  | nil => exact ⟨[], .nil, rfl⟩
  | cons one _ ih =>
    obtain ⟨gap, one⟩ := one
    obtain ⟨d, laid, eq⟩ := h.exists_draft one
    obtain ⟨ds, others, same⟩ := ih
    refine ⟨d :: ds, ?_, ?_⟩
    · rw [List.flatMap_cons]
      exact (laid _ gap).append others
    · rw [List.map_cons, List.map_cons, eq, same]

/-- Drafts laid out one after the other are written as a list. -/
theorem listed_written (h : Drafts item tokens reading spelling) {ds : List δ}
    (laid : Laid (ds.flatMap tokens) t) :
    Expresses (Listed (Spaced item)) (fun as ds => as.map reading = ds.map spelling) t ds := by
  induction ds generalizing t with
  | nil =>
    cases laid
    exact fun _ => ⟨[], .nil, rfl⟩
  | cons d ds ih =>
    intro n
    rw [List.flatMap_cons] at laid
    obtain ⟨_, rest, rfl, laid, others⟩ := laid_append_iff.1 laid
    obtain ⟨w, u, rfl, gap, one⟩ := h.written laid
    obtain ⟨a, one, eq⟩ := one.spaced gap n
    obtain ⟨as, others, same⟩ := ih others (n + (w ++ u).length)
    exact ⟨a :: as, .cons one others, List.cons_eq_cons.2 ⟨eq, same⟩⟩

/-- One thing and then others. -/
theorem series (h₁ : Drafts first tokens reading spelling)
    (h₂ : Drafts next tokens' reading spelling) :
    Drafts (Series first next) (fun ds : δ × List δ => tokens ds.1 ++ ds.2.flatMap tokens')
      (List.map reading) (fun ds => spelling ds.1 :: ds.2.map spelling) where
  exists_draft := by
    rintro n _ _ ⟨one, others⟩
    obtain ⟨d, laid, eq⟩ := h₁.exists_draft one
    obtain ⟨ds, others, same⟩ := h₂.exists_listed others
    refine ⟨(d, ds), fun w gap => ?_, List.cons_eq_cons.2 ⟨eq, same⟩⟩
    rw [← List.append_assoc]
    exact (laid w gap).append others
  written := by
    rintro ⟨d, ds⟩ t laid
    obtain ⟨_, rest, rfl, laid, others⟩ := laid_append_iff.1 laid
    obtain ⟨w, u, rfl, gap, one⟩ := h₁.written laid
    refine ⟨w, u ++ rest, List.append_assoc _ _ _, gap, fun n => ?_⟩
    obtain ⟨a, one, eq⟩ := one n
    obtain ⟨as, others, same⟩ := h₂.listed_written others (n + u.length)
    exact ⟨a :: as, ⟨one, others⟩, List.cons_eq_cons.2 ⟨eq, same⟩⟩

end Drafts

/-! ## Words, names and literals -/

/-- A word is drafted as one token. -/
theorem drafts_word : Drafts WrittenWord (fun v : VariableDraft => [v.1]) id (·.1) :=
  .ofToken (fun ⟨word, eq⟩ => ⟨⟨_, word⟩, rfl, eq⟩) fun v _ => ⟨v.1, ⟨v.2, rfl⟩, rfl⟩

/-- A name is drafted as one token, with its backticks if it has them. -/
theorem drafts_name : Drafts WrittenName (fun l => [l.token]) id NameDraft.chars := by
  refine .ofToken ?_ ?_
  · rintro n t name (word | ⟨some, inside⟩)
    · exact ⟨.plain _ word, rfl, rfl⟩
    · exact ⟨.quoted _ some inside, rfl, rfl⟩
  · rintro (⟨chars, word⟩ | ⟨chars, some, inside⟩) n
    · exact ⟨chars, .plain word, rfl⟩
    · exact ⟨chars, .quoted some inside, rfl⟩

/-- So is a literal, with its quotes. -/
theorem drafts_literal : Drafts WrittenLiteral (fun l => [l.token]) id LiteralDraft.literal := by
  refine .ofToken ?_ ?_
  · rintro n t l (⟨kind, inside⟩ | spelled | spelled | ⟨some, all⟩ | ⟨some, all⟩)
    · exact ⟨.text _ _ kind inside, rfl, rfl⟩
    · exact ⟨.boolean true _ spelled, rfl, rfl⟩
    · exact ⟨.boolean false _ spelled, rfl, rfl⟩
    · exact ⟨.integer false _ some all, rfl, rfl⟩
    · exact ⟨.integer true _ some all, rfl, rfl⟩
  · rintro (⟨_, _, kind, inside⟩ | ⟨truth, _, spelled⟩ | ⟨minus, _, some, all⟩) n
    · exact ⟨_, .text kind inside, rfl⟩
    · cases truth with
      | true => exact ⟨_, .true spelled, rfl⟩
      | false => exact ⟨_, .false spelled, rfl⟩
    · cases minus with
      | true => exact ⟨_, .negative some all, rfl⟩
      | false => exact ⟨_, .natural some all, rfl⟩

/-! ## Patterns -/

/-- What an entry says, without where its literal is. -/
def Entry.unplaced (e : Entry) : Entry := { e with offset := 0 }

/-- What an entry says, as spelled. -/
def EntryDraft.entry (e : EntryDraft) : Entry := ⟨e.key.chars, e.literal.literal, 0⟩

/-- An entry is drafted as three tokens. -/
theorem drafts_entry : Drafts WrittenEntry EntryDraft.tokens Entry.unplaced EntryDraft.entry where
  exists_draft := by
    rintro n _ _ ⟨name, gapName, gapColon, written⟩
    obtain ⟨key, laidKey, rfl⟩ := drafts_name.exists_draft name
    obtain ⟨literal, laidLiteral, rfl⟩ := drafts_literal.exists_draft written
    refine ⟨⟨key, literal⟩, fun w gap => ?_, rfl⟩
    have whole := (laidKey w gap).append (.cons (t := [':']) gapName (laidLiteral _ gapColon))
    simpa [EntryDraft.tokens] using whole
  written := by
    rintro ⟨key, literal⟩ t laid
    have laid : Laid ([key.token] ++ [':'] :: [literal.token]) t := laid
    obtain ⟨_, _, rfl, laidKey, laidRest⟩ := laid_append_iff.1 laid
    obtain ⟨w, k, rfl, gap, name⟩ := drafts_name.written laidKey
    obtain ⟨w', _, rfl, gapName, laidLiteral⟩ := laid_cons_iff.1 laidRest
    obtain ⟨v, l, rfl, gapColon, value⟩ := drafts_literal.written laidLiteral
    refine ⟨w, k ++ w' ++ ':' :: v ++ l, by simp, gap, fun n => ?_⟩
    obtain ⟨_, name, rfl⟩ := name n
    obtain ⟨_, written, rfl⟩ := value (n + (k ++ w' ++ ':' :: v).length)
    exact ⟨_, .mk name gapName gapColon written, rfl⟩

/-- What one or more drafts of a kind are laid out as is laid out from the first and the others. -/
theorem commas_map_cons {δ : Type} (tokens : δ → List (List Char)) (d : δ) (ds : List δ) :
    commas ((d :: ds).map tokens) = tokens d ++ ds.flatMap fun d => [','] :: tokens d := by
  rw [List.map_cons, commas, List.flatMap_map]

/-- Things with commas between them. -/
theorem Drafts.commas {α δ γ : Type} {item : Written α} {tokens : δ → List (List Char)}
    {reading : α → γ} {spelling : δ → γ} (h : Drafts item tokens reading spelling) :
    Drafts (Series item (Behind ',' item))
      (fun ds : δ × List δ => commas ((ds.1 :: ds.2).map tokens)) (List.map reading)
      (fun ds => (ds.1 :: ds.2).map spelling) := by
  simp only [commas_map_cons]
  exact h.series (h.follow ',')

/-- A property map that is there. -/
theorem drafts_properties : Drafts WrittenProperties (fun es => propertyTokens (some es))
    (List.map Entry.unplaced) (List.map EntryDraft.entry) where
  exists_draft := by
    rintro n _ _ (gap | ⟨gap, list, gap'⟩)
    · refine ⟨[], fun w gap' => ?_, rfl⟩
      have whole := Laid.cons (t := ['{']) gap' (laid_singleton (t := ['}']) gap)
      simpa [propertyTokens, Query.commas] using whole
    · obtain ⟨⟨e, es⟩, laid, eq⟩ := drafts_entry.commas.exists_draft list
      refine ⟨e :: es, fun w gap'' => ?_, eq⟩
      have inner := (laid _ gap).append (laid_singleton (t := ['}']) gap')
      have whole := Laid.cons (t := ['{']) gap'' inner
      simpa [propertyTokens] using whole
  written := by
    intro es t laid
    obtain ⟨w, _, rfl, gap, laid⟩ := laid_cons_iff.1 laid
    obtain ⟨_, _, rfl, laidEntries, laidBrace⟩ := laid_append_iff.1 laid
    obtain ⟨v, rfl, gapBrace⟩ := laid_singleton_iff.1 laidBrace
    cases es with
    | nil =>
      cases laidEntries
      exact ⟨w, _, List.append_assoc _ _ _, gap, fun n => ⟨[], .empty gapBrace, rfl⟩⟩
    | cons e es =>
      obtain ⟨w', u, rfl, gap', list⟩ := drafts_entry.commas.written (d := (e, es)) laidEntries
      refine ⟨w, '{' :: w' ++ u ++ v ++ ['}'], by simp, gap, fun n => ?_⟩
      obtain ⟨_, list, eq⟩ := list (n + ('{' :: w').length)
      exact ⟨_, .entries gap' list gapBrace, eq⟩

/-- What a pattern says, without where its literals are. -/
def PatternText.unplaced (w : PatternText) : PatternText :=
  { w with entries := w.entries.map Entry.unplaced }

/-- What a pattern says, as spelled. -/
def PatternDraft.pattern (d : PatternDraft) : PatternText where
  binds := d.binds.1
  labels := d.labels.map NameDraft.chars
  entries := (d.entries.getD []).map EntryDraft.entry

/-- A pattern is laid out by its parts. -/
theorem laid_pattern {d : PatternDraft} {w v ls rest : List Char} (gap : Gap w) (gap' : Gap v)
    (labels : Laid (d.labels.flatMap fun l => [[':'], l.token]) ls)
    (properties : Laid (propertyTokens d.entries ++ [[')']]) rest) :
    Laid d.tokens (w ++ ('(' :: v ++ d.binds.1 ++ (ls ++ rest))) := by
  have whole := Laid.cons (t := ['(']) gap
    (.cons (t := d.binds.1) gap' (labels.append properties))
  simpa [PatternDraft.tokens] using whole

/-- A pattern is drafted by what it is written with, whichever of its parts are missing. -/
theorem drafts_pattern : Drafts WrittenPattern PatternDraft.tokens PatternText.unplaced
    PatternDraft.pattern where
  exists_draft := by
    rintro n _ _ (⟨gap, word, list, gap'⟩ | ⟨gap, word, list, gap', properties, gap''⟩)
    · obtain ⟨labels, laid, eq⟩ := (drafts_name.follow ':').exists_listed list
      refine ⟨⟨⟨_, word⟩, labels, none⟩, fun w start => ?_, ?_⟩
      · have whole := laid_pattern (d := ⟨⟨_, word⟩, labels, none⟩) start gap laid
          (laid_singleton gap')
        simpa using whole
      · obtain rfl := (List.map_id _).symm.trans eq
        rfl
    · obtain ⟨labels, laid, eq⟩ := (drafts_name.follow ':').exists_listed list
      obtain ⟨es, laidProperties, eq'⟩ := drafts_properties.exists_draft properties
      refine ⟨⟨⟨_, word⟩, labels, some es⟩, fun w start => ?_, ?_⟩
      · have whole := laid_pattern (d := ⟨⟨_, word⟩, labels, some es⟩) start gap laid
          ((laidProperties _ gap').append (laid_singleton gap''))
        simpa using whole
      · obtain rfl := (List.map_id _).symm.trans eq
        exact congrArg (PatternText.mk _ _) eq'
  written := by
    rintro ⟨⟨name, word⟩, labels, entries⟩ t laid
    rw [PatternDraft.tokens, List.append_assoc] at laid
    obtain ⟨w, _, rfl, gap, laid⟩ := laid_cons_iff.1 laid
    obtain ⟨v, _, rfl, gap', laid⟩ := laid_cons_iff.1 laid
    obtain ⟨ls, _, rfl, laidLabels, laid⟩ := laid_append_iff.1 laid
    have list := (drafts_name.follow ':').listed_written laidLabels
    obtain ⟨_, _, rfl, laidProperties, laidEnd⟩ := laid_append_iff.1 laid
    obtain ⟨x, rfl, gap''⟩ := laid_singleton_iff.1 laidEnd
    cases entries with
    | none =>
      cases laidProperties
      refine ⟨w, '(' :: v ++ name ++ ls ++ x ++ [')'], by simp, gap, fun n => ?_⟩
      obtain ⟨labels', list, eq⟩ := list (n + ('(' :: v ++ name).length)
      obtain rfl := (List.map_id _).symm.trans eq
      exact ⟨_, .bare gap' word list gap'', rfl⟩
    | some es =>
      obtain ⟨y, u, rfl, gapBrace, properties⟩ := drafts_properties.written laidProperties
      refine ⟨w, '(' :: v ++ name ++ ls ++ y ++ u ++ x ++ [')'], by simp, gap, fun n => ?_⟩
      obtain ⟨labels', list, eq⟩ := list (n + ('(' :: v ++ name).length)
      obtain ⟨es', properties, eq'⟩ := properties (n + ('(' :: v ++ name ++ ls ++ y).length)
      obtain rfl := (List.map_id _).symm.trans eq
      exact ⟨_, .full gap' word list gapBrace properties gap'', congrArg (PatternText.mk _ _) eq'⟩

/-! ## Clauses and statements -/

/-- A clause is drafted as a keyword and a pattern. -/
theorem drafts_clause : Drafts WrittenClause ClauseDraft.tokens PatternText.unplaced
    (·.pattern.pattern) where
  exists_draft := by
    rintro n _ _ @⟨keyword, _, _, _, spelled, gap, pattern⟩
    obtain ⟨p, laid, eq⟩ := drafts_pattern.exists_draft pattern
    refine ⟨⟨keyword, spelled, p⟩, fun w start => ?_, eq⟩
    have whole := Laid.cons (t := keyword) start (laid _ gap)
    simpa [ClauseDraft.tokens] using whole
  written := by
    rintro ⟨keyword, spelled, p⟩ t laid
    obtain ⟨w, _, rfl, gap, laid⟩ := laid_cons_iff.1 laid
    obtain ⟨v, u, rfl, gap', pattern⟩ := drafts_pattern.written laid
    refine ⟨w, keyword ++ v ++ u, by simp, gap, fun n => ?_⟩
    obtain ⟨a, pattern, eq⟩ := pattern (n + (keyword ++ v).length)
    exact ⟨a, ⟨spelled, gap', pattern⟩, eq⟩

/-- What a statement says, without where its literals are. -/
def Statement.unplaced (s : Statement) : Statement :=
  { s with patterns := s.patterns.map PatternText.unplaced }

/-- What a query says, as spelled. -/
def Draft.statement (d : Draft) : Statement where
  patterns := d.clauses.map fun c => c.pattern.pattern
  returns := d.returns.map (·.1)

/-- **Every text of the language is laid out from a draft.** -/
theorem Denotes.exists_draft {t : List Char} {s : Statement} (h : Denotes t s) :
    ∃ d : Draft, d.LaidOut t ∧ s.unplaced = d.statement := by
  obtain @⟨w, cs, v, r, u, rs, x, patterns, returns, gap, clauses, gapKeyword, spelled, gapReturns,
    ne, list, gapEnd⟩ := h
  obtain ⟨⟨first, others⟩, laidClauses, eq⟩ :=
    (drafts_clause.series drafts_clause).exists_draft clauses
  obtain ⟨⟨name, names⟩, laidReturns, eq'⟩ := drafts_word.commas.exists_draft list
  obtain rfl := (List.map_id _).symm.trans eq'
  let d : Draft :=
    ⟨first :: others, List.cons_ne_nil _ _, r, spelled, name :: names, List.cons_ne_nil _ _⟩
  refine ⟨d, ?_, congrArg (Statement.mk · _) eq⟩
  have front : Laid d.front (w ++ cs ++ (v ++ r)) :=
    (laidClauses w gap).append (laid_singleton gapKeyword)
  have whole := Draft.LaidOut.mk front gapReturns ne (laidReturns [] .nil) gapEnd
  simpa using whole

/-- **Wherever the blanks are, a draft is laid out as a text of the language.** -/
theorem Draft.LaidOut.denotes {d : Draft} {t : List Char} (h : d.LaidOut t) :
    ∃ s, Denotes t s ∧ s.unplaced = d.statement := by
  obtain ⟨clauses, some, keyword, spelled, returns, some'⟩ := d
  obtain ⟨c, cs, rfl⟩ := List.exists_cons_of_ne_nil some
  obtain ⟨v, vs, rfl⟩ := List.exists_cons_of_ne_nil some'
  obtain @⟨_, u, _, x, laidFront, gapReturns, ne, laidBack, gapEnd⟩ := h
  obtain ⟨_, _, rfl, laidClauses, laidKeyword⟩ := laid_append_iff.1 laidFront
  obtain ⟨y, rfl, gapKeyword⟩ := laid_singleton_iff.1 laidKeyword
  obtain ⟨w, p, rfl, gap, clauses⟩ :=
    (drafts_clause.series drafts_clause).written (d := (c, cs)) laidClauses
  obtain ⟨w', q, rfl, gap', returns⟩ := drafts_word.commas.written (d := (v, vs)) laidBack
  obtain ⟨patterns, clauses, eq⟩ := clauses w.length
  -- the blanks that are needed and those in front of the variable make one gap
  obtain ⟨names, returns, eq'⟩ := returns (w ++ p ++ y ++ keyword ++ (u ++ w')).length
  obtain rfl := (List.map_id _).symm.trans eq'
  refine ⟨⟨patterns, _⟩, ?_, congrArg (Statement.mk · _) eq⟩
  have whole := Denotes.mk gap clauses gapKeyword spelled (gapReturns.append gap')
    (List.append_ne_nil_of_left_ne_nil ne w') returns gapEnd
  simpa using whole

end PropertyGraph.Query
