import PropertyGraph.Query.Grammar

/-!
# Places in a text

A cursor goes from one place of a text to another, over the part between (`Cursor.Over`). Where a
repetition stops is told by the class of characters that it takes: none of them follows
(`Cursor.Ends`).
-/

namespace PropertyGraph.Query

theorem Gap.nil : Gap [] := fun _ h => nomatch h

/-- Blanks behind blanks are blanks. -/
theorem Gap.append {v w : List Char} (hv : Gap v) (hw : Gap w) : Gap (v ++ w) := fun k hk =>
  (List.mem_append.1 hk).elim (hv k) (hw k)

/-! ## Places -/

namespace Cursor

/-- Going from one place to another passes a text. -/
structure Over (c : Cursor) (t : List Char) (d : Cursor) : Prop where
  /-- The text comes first of what follows. -/
  rest_eq : c.rest = t ++ d.rest
  /-- Its characters are counted. -/
  offset_eq : d.offset = c.offset + t.length

/-- No character of a class follows. -/
def Ends (p : Char → Bool) (c : Cursor) : Prop := ∀ k, c.rest.head? = some k → p k = false

variable {c d e : Cursor} {t u : List Char} {k : Char}

theorem Over.refl (c : Cursor) : c.Over [] c := ⟨rfl, rfl⟩

/-- From one place to the next and on is one way. -/
theorem Over.append (h : c.Over t d) (h' : d.Over u e) : c.Over (t ++ u) e where
  rest_eq := by rw [h.rest_eq, h'.rest_eq, List.append_assoc]
  offset_eq := by rw [h'.offset_eq, h.offset_eq, List.length_append, Nat.add_assoc]

/-- A text in two parts is passed part by part. -/
theorem over_append_iff : c.Over (t ++ u) e ↔ ∃ d, c.Over t d ∧ d.Over u e := by
  refine ⟨fun h => ?_, fun ⟨d, h, h'⟩ => h.append h'⟩
  refine ⟨⟨c.offset + t.length, u ++ e.rest⟩, ⟨?_, rfl⟩, ⟨rfl, ?_⟩⟩
  · rw [h.rest_eq, List.append_assoc]
  · rw [h.offset_eq, List.length_append, Nat.add_assoc]

/-- Going over nothing leads nowhere. -/
theorem over_nil_iff : c.Over [] d ↔ d = c := by
  refine ⟨fun ⟨rest, offset⟩ => ?_, fun h => h ▸ .refl c⟩
  obtain ⟨m, s⟩ := c
  obtain ⟨n, s'⟩ := d
  rw [show n = m from offset, show s' = s from rest.symm]

/-- Where one comes to is decided by what one passes. -/
theorem Over.eq_skip (h : c.Over t d) : d = c.skip t.length := by
  obtain ⟨n, s⟩ := d
  rw [skip, h.rest_eq, List.drop_left, ← h.offset_eq]

/-- Skipping goes over what is skipped. -/
theorem over_skip {n : Nat} (h : n ≤ c.rest.length) : c.Over (c.rest.take n) (c.skip n) where
  rest_eq := (List.take_append_drop n c.rest).symm
  offset_eq := by rw [List.length_take, Nat.min_eq_left h]; rfl

/-- It may go over a run of one class. -/
theorem over_takeWhile (c : Cursor) (p : Char → Bool) :
    c.Over (c.rest.takeWhile p) (c.skip (c.rest.takeWhile p).length) := by
  have prefixed := List.takeWhile_prefix (l := c.rest) p
  have := over_skip (c := c) prefixed.length_le
  rwa [← List.prefix_iff_eq_take.1 prefixed] at this

/-- What starts a part ends what is of another class. -/
theorem ends_of_over (h : c.Over (k :: t) d) {p : Char → Bool} (hk : p k = false) : c.Ends p := by
  intro k' eq
  rw [h.rest_eq] at eq
  obtain rfl : k = k' := Option.some.inj eq
  exact hk

/-- A run ends where its class does. -/
theorem ends_takeWhile (c : Cursor) (p : Char → Bool) :
    (c.skip (c.rest.takeWhile p).length).Ends p := by
  intro k eq
  have rest : (c.skip (c.rest.takeWhile p).length).rest = c.rest.dropWhile p := by
    have := (over_takeWhile c p).rest_eq
    rw [← List.append_cancel_left (this.symm.trans List.takeWhile_append_dropWhile.symm)]
  rw [rest] at eq
  have := List.head?_dropWhile_not p c.rest
  rw [eq] at this
  simpa using this

/-- The longest run of a class is the one in front of something else. -/
theorem takeWhile_eq_of_over {p : Char → Bool} (h : c.Over t d) (all : ∀ k ∈ t, p k)
    (ends : d.Ends p) : c.rest.takeWhile p = t := by
  rw [h.rest_eq, List.takeWhile_append_of_pos all]
  have none : d.rest.takeWhile p = [] := by
    cases rest : d.rest with
    | nil => rfl
    | cons k s => exact List.takeWhile_cons_of_neg (by simp [ends k (by rw [rest]; rfl)])
  rw [none, List.append_nil]

/-! ## Blanks -/

/-- There is nothing but blanks between two places. -/
def Blanks (c d : Cursor) : Prop := ∃ w, Gap w ∧ c.Over w d

theorem Blanks.refl (c : Cursor) : c.Blanks c := ⟨[], .nil, .refl c⟩

/-- Skipping blanks goes over blanks alone. -/
theorem blanks_skipBlanks (c : Cursor) : c.Blanks c.skipBlanks :=
  ⟨_, List.all_eq_true.1 List.all_takeWhile, over_takeWhile c isSeparator⟩

/-- It goes over all of them. -/
theorem ends_skipBlanks (c : Cursor) : c.skipBlanks.Ends isSeparator :=
  ends_takeWhile c isSeparator

/-- There is one place behind all blanks. -/
theorem Blanks.skipBlanks_eq_of_ends (h : c.Blanks d) (ends : d.Ends isSeparator) :
    c.skipBlanks = d := by
  obtain ⟨w, gap, path⟩ := h
  rw [skipBlanks, takeWhile_eq_of_over path gap ends, path.eq_skip]

/-- Blanks may be passed in two goes. -/
theorem Blanks.trans (h : c.Blanks d) (h' : d.Blanks e) : c.Blanks e := by
  obtain ⟨w, gap, path⟩ := h
  obtain ⟨w', gap', path'⟩ := h'
  exact ⟨w ++ w', gap.append gap', path.append path'⟩

/-- Blanks make no difference to where the next token starts. -/
theorem Blanks.skipBlanks_eq (h : c.Blanks d) : c.skipBlanks = d.skipBlanks :=
  (h.trans d.blanks_skipBlanks).skipBlanks_eq_of_ends d.ends_skipBlanks

/-- In front of blanks there is nothing of a class either, if blanks are not of it. -/
theorem Blanks.ends (h : c.Blanks d) {p : Char → Bool} (sep : ∀ k, isSeparator k → p k = false)
    (ends : d.Ends p) : c.Ends p := by
  obtain ⟨w, gap, path⟩ := h
  cases w with
  | nil => rwa [← over_nil_iff.1 path]
  | cons k s => exact ends_of_over path (sep k (gap k List.mem_cons_self))

end Cursor

end PropertyGraph.Query
