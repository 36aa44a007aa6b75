import PropertyGraph.Query.Grammar

/-!
# The parts of a text

A statement has patterns, a pattern has labels and entries, and each of these is written in a part
of the text. What is true of a part and stays true whatever stands around it (`Persists`) is so true
of all parts of their kind in the whole text: of all patterns and variables (`Persists.patterns`,
`Persists.returns`), and of all labels and entries of a pattern (`Persists.labels`,
`Persists.entries`).
-/

namespace PropertyGraph.Query

variable {α : Type} {item first next : Written α}

/-- **What stays true in a larger text.** -/
structure Persists (P : Written α) : Prop where
  /-- More may come in front. -/
  behind : ∀ {n u t a}, P (n + u.length) t a → P n (u ++ t) a
  /-- And more may follow. -/
  before : ∀ {n t v a}, P n t a → P n (t ++ v) a

namespace Persists

/-- What does not look at the text is not changed by it. -/
theorem const (p : α → Prop) : Persists fun _ _ a => p a := ⟨id, id⟩

variable {P : Written α} {n : Nat} {t : List Char} {s : Statement}

/-- What persists of each part persists of all of them together. -/
theorem forall_mem {β : Type} (hP : Persists P) (parts : β → List α) :
    Persists fun n t b => ∀ a ∈ parts b, P n t a :=
  ⟨fun h a ha => hP.behind (h a ha), fun h a ha => hP.before (h a ha)⟩

/-! ## Blanks and lists -/

/-- Blanks in front of a part do not matter to what persists. -/
theorem spaced (hP : Persists P) (h : ∀ n t a, item n t a → P n t a) :
    ∀ n t a, Spaced item n t a → P n t a := by
  rintro n _ a ⟨-, one⟩
  exact hP.behind (h _ _ _ one)

theorem follow (hP : Persists P) (h : ∀ n t a, item n t a → P n t a) (k : Char) :
    ∀ n t a, Behind k item n t a → P n t a := by
  rintro n _ a ⟨-, one⟩
  exact hP.behind (h _ _ _ one)

theorem listed (hP : Persists P) (h : ∀ n t a, item n t a → P n t a) :
    ∀ n t as, Listed item n t as → ∀ a ∈ as, P n t a := by
  intro n t as list
  induction list with
  | nil => exact List.forall_mem_nil _
  | cons one _ ih =>
    exact List.forall_mem_cons.2 ⟨hP.before (h _ _ _ one), fun a ha => hP.behind (ih a ha)⟩

theorem series (hP : Persists P) (h₁ : ∀ n t a, first n t a → P n t a)
    (h₂ : ∀ n t a, next n t a → P n t a) :
    ∀ n t as, Series first next n t as → ∀ a ∈ as, P n t a := by
  rintro n _ _ ⟨one, others⟩
  exact List.forall_mem_cons.2 ⟨hP.before (h₁ _ _ _ one),
    fun a ha => hP.behind (hP.listed (hP.spaced h₂) _ _ _ others a ha)⟩

/-! ## Patterns and statements -/

/-- What is true of entries and persists is true of those of a pattern, in its whole text. -/
theorem entries {P : Written Entry} (hP : Persists P) (h : ∀ n t e, WrittenEntry n t e → P n t e) :
    ∀ n t w, WrittenPattern n t w → ∀ e ∈ w.entries, P n t e := by
  rintro n _ _ (_ | ⟨-, -, -, -, _ | ⟨-, list, -⟩, -⟩)
  · exact List.forall_mem_nil _
  · exact List.forall_mem_nil _
  · intro e he
    have inner := hP.series h (hP.follow h ',') _ _ _ list e he
    exact hP.before (hP.before (hP.behind (hP.before (hP.before (hP.behind inner)))))

/-- What is true of labels and persists is true of those of a pattern, in its whole text. -/
theorem labels {P : Written (List Char)} (hP : Persists P)
    (h : ∀ n t l, WrittenName n t l → P n t l) :
    ∀ n t w, WrittenPattern n t w → ∀ l ∈ w.labels, P n t l := by
  rintro n _ _ (⟨-, -, list, -⟩ | ⟨-, -, list, -, -, -⟩) l hl
  · have inner := hP.listed (hP.spaced (hP.follow h ':')) _ _ _ list l hl
    exact hP.before (hP.before (hP.behind inner))
  · have inner := hP.listed (hP.spaced (hP.follow h ':')) _ _ _ list l hl
    exact hP.before (hP.before (hP.before (hP.before (hP.behind inner))))

/-- **What is true of patterns and persists** is true of those of a statement, in the whole text
that denotes the statement. -/
theorem patterns {P : Written PatternText} (hP : Persists P)
    (h : ∀ n t w, WrittenPattern n t w → P n t w) (denotes : Denotes t s) :
    ∀ w ∈ s.patterns, P 0 t w := by
  have clause : ∀ n t w, WrittenClause n t w → P n t w := by
    rintro n _ _ ⟨-, -, pattern⟩
    exact hP.behind (h _ _ _ pattern)
  obtain @⟨w, cs, v, r, u, rs, x, patterns, returns, -, clauses, -, -, -, -, -, -⟩ := denotes
  intro p hp
  have inner := hP.series clause clause _ _ _ clauses p hp
  rw [← Nat.zero_add w.length] at inner
  exact hP.before (hP.before (hP.before (hP.before (hP.before (hP.behind inner)))))

/-- And so it is with the variables that a statement returns. -/
theorem returns {P : Written (List Char)} (hP : Persists P)
    (h : ∀ n t v, WrittenWord n t v → P n t v) (denotes : Denotes t s) :
    ∀ v ∈ s.returns, P 0 t v := by
  obtain @⟨w, cs, v, r, u, rs, x, patterns, returns, -, -, -, -, -, -, list, -⟩ := denotes
  intro name hn
  have inner := hP.series h (hP.follow h ',') _ _ _ list name hn
  rw [← Nat.zero_add (w ++ cs ++ v ++ r ++ u).length] at inner
  exact hP.before (hP.behind inner)

end Persists

end PropertyGraph.Query
