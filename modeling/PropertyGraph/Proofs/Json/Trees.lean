import PropertyGraph.Proofs.Json.Members

/-!
# Reading what a tree says

A reader *understands* a tree (`Understands`) if it takes the text of the tree, in either style, at
any depth and behind any blanks. It is shown here what the texts of trees look like as bytes, and
that the readers for texts, truth values and numbers understand the trees for them.
-/

namespace PropertyGraph.Json

variable {α β : Type}

/-! ## The bytes of a tree -/

/-- The text of a tree as bytes. -/
def Tree.bytes (style : Style) (depth : Nat) (t : Tree) : List UInt8 :=
  Utf8.encode (t.writeAt style depth)

/-- The text of an entry of an object as bytes. -/
def entryBytes (style : Style) (depth : Nat) (e : String × Tree) : List UInt8 :=
  Utf8.encode (writeString e.1) ++ (byte ':' :: (style.pad ++ e.2.bytes style depth))

section Bytes

variable (style : Style) (depth : Nat)

/-- The items behind the first one, and the closing bracket, as bytes. -/
theorem encode_writeItems (items : List Tree) :
    Utf8.encode (Tree.writeItems style (depth + 1) items) ++ (style.gap depth ++ [byte ']']) =
      Frame.list.behind style depth (items.map (·.bytes style (depth + 1))) := by
  induction items with
  | nil => rfl
  | cons t rest ih =>
    rw [Tree.writeItems, List.map_cons, Frame.behind, ← ih]
    simp only [Utf8.encode_append, Utf8.encode_cons, Tree.bytes, Style.gap, List.append_assoc,
      List.cons_append]
    rfl

/-- The entries behind the first one, and the closing brace, as bytes. -/
theorem encode_writeEntries (entries : List (String × Tree)) :
    Utf8.encode (Tree.writeEntries style (depth + 1) entries) ++
        (style.gap depth ++ [byte '\x7d']) =
      Frame.object.behind style depth (entries.map (entryBytes style (depth + 1))) := by
  induction entries with
  | nil => rfl
  | cons e rest ih =>
    obtain ⟨key, t⟩ := e
    rw [Tree.writeEntries, List.map_cons, Frame.behind, ← ih, entryBytes]
    simp only [Utf8.encode_append, Utf8.encode_cons, Tree.bytes, Style.gap, List.append_assoc,
      List.cons_append, Style.encode_colon]
    rfl

/-- A list is its items between brackets. -/
theorem bytes_list (items : List Tree) : (Tree.list items).bytes style depth =
    byte '[' :: Frame.list.inside style depth (items.map (·.bytes style (depth + 1))) := by
  cases items with
  | nil => rfl
  | cons t rest =>
    rw [Tree.bytes, Tree.writeAt, List.map_cons, Frame.inside, ← encode_writeItems]
    simp only [Utf8.encode_append, Utf8.encode_cons, Tree.bytes, Style.gap, List.append_assoc,
      List.cons_append]
    rfl

/-- An object is its entries between braces. -/
theorem bytes_object (entries : List (String × Tree)) :
    (Tree.object entries).bytes style depth = byte '\x7b' ::
      Frame.object.inside style depth (entries.map (entryBytes style (depth + 1))) := by
  cases entries with
  | nil => rfl
  | cons e rest =>
    obtain ⟨key, t⟩ := e
    rw [Tree.bytes, Tree.writeAt, List.map_cons, Frame.inside, ← encode_writeEntries, entryBytes]
    simp only [Utf8.encode_append, Utf8.encode_cons, Tree.bytes, Style.gap, List.append_assoc,
      List.cons_append, Style.encode_colon]
    rfl

/-- No tree starts like the end of a list. -/
theorem bytes_start (t : Tree) : ∃ b s, t.bytes style depth = b :: s ∧ StartsItem b := by
  cases t with
  | null => exact ⟨byte 'n', _, rfl, by decide, by decide⟩
  | boolean truth => cases truth <;> exact ⟨_, _, rfl, by decide, by decide⟩
  | number n =>
    rw [Tree.bytes, Tree.writeAt, encode_toString]
    split
    · exact ⟨_, _, rfl, by decide, by decide⟩
    · obtain ⟨b, others, first⟩ := List.exists_cons_of_ne_nil (digits_ne_nil n.natAbs)
      have start : isDigit b := isDigit_of_mem_digits (first ▸ List.mem_cons_self)
      refine ⟨b, others, first, isBlank_of_isDigit start, ?_⟩
      rintro rfl
      exact absurd start (by decide)
  | string s =>
    rw [Tree.bytes, Tree.writeAt, encode_writeString]
    exact ⟨_, _, rfl, by decide, by decide⟩
  | list items => exact ⟨_, _, bytes_list style depth items, by decide, by decide⟩
  | object entries => exact ⟨_, _, bytes_object style depth entries, by decide, by decide⟩

/-- An entry starts with the quote of its key. -/
theorem entryBytes_start (e : String × Tree) :
    ∃ b s, entryBytes style depth e = b :: s ∧ b = byte '"' := by
  rw [entryBytes, encode_writeString]
  exact ⟨_, _, rfl, rfl⟩

end Bytes

/-! ## Understanding -/

/-- A reader passes over blanks. -/
def SkipsBlanks (r : Reader α) : Prop := ∀ b s, isBlank b → r (b :: s) = r s

/-- A reader that looks for a value passes over blanks. -/
theorem skipsBlanks_value (go : UInt8 → List UInt8 → Except Error (α × List UInt8)) :
    SkipsBlanks (Reader.value go) := fun b s h => by
  rw [Reader.value, Reader.value, skipBlanks, List.dropWhile_cons_of_pos h, skipBlanks]

/-- Whatever it makes of that. -/
theorem SkipsBlanks.map {r : Reader α} (h : SkipsBlanks r) (f : α → β) : SkipsBlanks (f <$> r) :=
  fun b s hb => by
    show (r (b :: s) >>= fun x => pure (f x.1, x.2)) = (r s >>= fun x => pure (f x.1, x.2))
    rw [h b s hb]

/-- **A reader understands a tree** as `a`: it passes over blanks and takes the text. -/
structure Understands (r : Reader α) (t : Tree) (a : α) : Prop where
  skips : SkipsBlanks r
  takes : ∀ style depth, Takes r (t.bytes style depth) a

namespace Understands

variable {r : Reader α} {t : Tree} {a : α}

/-- What is made of a tree may be changed. -/
theorem map (h : Understands r t a) (f : α → β) : Understands (f <$> r) t (f a) where
  skips := h.skips.map f
  takes style depth := (h.takes style depth).map f

/-- The same, with the change written as a last step. -/
theorem bind_pure (h : Understands r t a) (f : α → β) :
    Understands (r >>= fun a => pure (f a)) t (f a) := by
  rw [← map_eq_pure_bind]
  exact h.map f

/-- Blanks in front of a tree make no difference. -/
theorem run_append (h : Understands r t a) {pre : List UInt8} (blank : Blank pre)
    (s : List UInt8) : r (pre ++ s) = r s := by
  induction pre with
  | nil => rfl
  | cons b pre ih =>
    obtain ⟨first, others⟩ := List.forall_mem_cons.1 blank
    rw [List.cons_append, h.skips b _ first, ih others]

/-- The text of a tree is taken together with the blanks in front of it. -/
theorem takes_append (h : Understands r t a) {pre : List UInt8} (blank : Blank pre)
    (style : Style) (depth : Nat) : Takes r (pre ++ t.bytes style depth) a where
  whole ends := by
    rw [List.append_assoc, h.run_append blank, (h.takes style depth).whole ends]
  cut {p q} parts ne := by
    rcases cut_of_append parts with ⟨q', front, -⟩ | ⟨p', rfl, behind⟩
    · have none := h.run_append (front ▸ blank).of_append []
      obtain ⟨b, s, start, -⟩ := bytes_start style depth t
      rw [List.append_nil] at none
      rw [RunsShort, none]
      exact (h.takes style depth).cut (List.nil_append _).symm (by rw [start]; simp)
    · rw [RunsShort, h.run_append blank]
      exact (h.takes style depth).cut behind ne

end Understands

/-! ## Leaves -/

/-- The closing quote delimits a string. -/
theorem text_delimits (expected s : String) :
    Delimits EndsEarly (Reader.text expected) (Utf8.encode (writeString s)) s := by
  rw [encode_writeString]
  exact value_delimits (by decide) (readString_delimits s)

/-- The reader of texts understands strings. -/
theorem text_understands (expected s : String) :
    Understands (Reader.text expected) (.string s) s where
  skips := skipsBlanks_value _
  takes _ _ := takes_of_delimits (text_delimits expected s)

/-- The reader of 64-bit integers understands their numbers. -/
theorem int64_understands (i : Int64) : Understands Reader.int64 (.number i.toInt) i where
  skips := (skipsBlanks_value _).map _
  takes _ _ := int64_takes i

/-- The reader of bytes understands theirs. -/
theorem byte_understands (b : UInt8) : Understands Reader.byte (.number b.toNat) b where
  skips := (skipsBlanks_value _).map _
  takes _ _ := byte_takes b

/-- The reader of truth values understands both. -/
theorem boolean_understands (truth : Bool) : Understands Reader.boolean (.boolean truth) truth where
  skips := skipsBlanks_value _
  takes _ _ := by
    refine takes_of_delimits ?_
    cases truth with
    | true => exact value_delimits (by decide) (readIdent_delimits "rue".toList true)
    | false => exact value_delimits (by decide) (readIdent_delimits "alse".toList false)

end PropertyGraph.Json
