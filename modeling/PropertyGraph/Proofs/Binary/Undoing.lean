import PropertyGraph.Binary.Codec
import PropertyGraph.Proofs.Reading
import PropertyGraph.Proofs.Text.Encoding

/-!
# Readers that undo writers

The binary form of a kind of thing is a writer and a reader. The reader *undoes* the writer
(`Undoes`) if it delimits what is written and accepts nothing else; then what it accepts is known
exactly (`Undoes.read_eq_ok_iff`), and bytes that were cut off are found `Error.truncated` wherever
the cut is.

A reader that goes on depending on what it has read undoes a writer that starts with the part of
its thing that is read first (`Undoes.bind`). This one rule carries texts, lists, variants and
records. Lengths are words of eight bytes, so texts and lists must not be longer than such a word
can tell.
-/

namespace PropertyGraph.Binary

variable {α β : Type}

/-- **A reader undoes a writer** on everything that fits. -/
structure Undoes (r : Reader α) (write : α → List UInt8) (fits : α → Prop) : Prop where
  /-- What is written is read back, and a part of it is not taken for the whole. -/
  delimits : ∀ {a}, fits a → Delimits (· = Error.truncated) r (write a) a
  /-- Nothing but what is written is read. -/
  written : ∀ {s a rest}, r s = .ok (a, rest) → fits a ∧ s = write a ++ rest

namespace Undoes

variable {r : Reader α} {write : α → List UInt8} {fits : α → Prop}

/-- Reading succeeds exactly on what has been written, whatever stands behind it. -/
theorem read_eq_ok_iff (h : Undoes r write fits) {s rest : List UInt8} {a : α} :
    r s = .ok (a, rest) ↔ fits a ∧ s = write a ++ rest := by
  refine ⟨h.written, ?_⟩
  rintro ⟨fits, rfl⟩
  exact (h.delimits fits).whole rest

/-- It does not matter how one puts what is written and what fits. -/
theorem congr {write' : α → List UInt8} {fits' : α → Prop} (h : Undoes r write fits)
    (same : ∀ a, write' a = write a) (iff : ∀ a, fits' a ↔ fits a) : Undoes r write' fits' := by
  obtain rfl : write' = write := funext same
  obtain rfl : fits' = fits := funext fun a => propext (iff a)
  exact h

/-- What has been read is made into something else. -/
theorem map (h : Undoes r write fits) {f : α → β} {write' : β → List UInt8} {fits' : β → Prop}
    (back : ∀ b, fits' b → ∃ a, fits a ∧ f a = b)
    (forth : ∀ a, fits a → fits' (f a) ∧ write' (f a) = write a) :
    Undoes (f <$> r) write' fits' where
  delimits hb := by
    obtain ⟨a, ha, rfl⟩ := back _ hb
    rw [(forth a ha).2]
    exact (h.delimits ha).map f
  written ok := by
    obtain ⟨a, read, rfl⟩ := run_map_eq_ok_iff.1 ok
    obtain ⟨ha, rfl⟩ := h.written read
    obtain ⟨hb, same⟩ := forth a ha
    exact ⟨hb, by rw [same]⟩

/-- Nothing is left to read when all is known. -/
theorem pure {b : β} {known : β → Prop} (only : ∀ b', known b' ↔ b' = b) :
    Undoes (Pure.pure b) (fun _ => []) known where
  delimits hb := by
    obtain rfl := (only _).1 hb
    exact .pure _
  written ok := by
    obtain ⟨rfl, rfl⟩ := Prod.mk.inj (Except.ok.inj ok)
    exact ⟨(only _).2 rfl, rfl⟩

/-- Nothing can be read that fits. -/
theorem throw {e : Error} (unfit : ∀ a, ¬ fits a) : Undoes (throw e) write fits where
  delimits ha := absurd ha (unfit _)
  written ok := nomatch ok

/-- **One reading after the other.** A part is read first, and the reader for the rest may rely on
what that part is. -/
theorem bind {f : α → Reader β} (part : β → α) (write' : β → List UInt8) (fits' : β → Prop)
    (h : Undoes r write fits) (next : ∀ a, Undoes (f a) write' fun b => part b = a ∧ fits' b) :
    Undoes (r >>= f) (fun b => write (part b) ++ write' b) fun b => fits (part b) ∧ fits' b where
  delimits := by
    rintro b ⟨first, others⟩
    exact (h.delimits first).bind ((next _).delimits ⟨rfl, others⟩)
  written ok := by
    obtain ⟨a, s₁, first, behind⟩ := run_bind_eq_ok_iff.1 ok
    obtain ⟨ha, rfl⟩ := h.written first
    obtain ⟨⟨rfl, others⟩, rfl⟩ := (next a).written behind
    rw [List.append_assoc]
    exact ⟨⟨ha, others⟩, rfl⟩

/-- Reads a field of a record some of which is known. -/
theorem field {f : α → Reader β} (known : β → Prop) (part : β → α) {write' : β → List UInt8}
    {fits' : β → Prop} (h : Undoes r write fits)
    (next : ∀ a, Undoes (f a) write' fun b => (known b ∧ part b = a) ∧ fits' b) :
    Undoes (r >>= f) (fun b => write (part b) ++ write' b)
      fun b => known b ∧ fits (part b) ∧ fits' b := by
  have next' (a : α) : Undoes (f a) write' fun b => part b = a ∧ known b ∧ fits' b :=
    (next a).congr (fun _ => rfl) fun _ => and_left_comm.trans and_assoc.symm
  exact (h.bind part _ _ next').congr (fun _ => rfl) fun _ => and_left_comm

/-- Reads the last field of a record, with which all of it is known. -/
theorem lastField {make : α → β} (known : β → Prop) (part : β → α) (h : Undoes r write fits)
    (made : ∀ a b, known b ∧ part b = a ↔ b = make a) :
    Undoes (r >>= fun a => Pure.pure (make a)) (fun b => write (part b))
      fun b => known b ∧ fits (part b) := by
  have next (a : α) : Undoes (Pure.pure (make a)) (fun _ => [])
      fun b => (known b ∧ part b = a) ∧ True :=
    .pure fun b => (and_true _).to_iff.trans (made a b)
  exact (h.field known part next).congr (fun _ => (List.append_nil _).symm)
    fun _ => and_congr_right' (and_true _).to_iff.symm

end Undoes

/-! ## Words -/

/-- So many bytes are read as they are. -/
theorem readBytes_undoes (count : Nat) : Undoes (readBytes count) id (·.length = count) where
  delimits := by
    rintro w rfl
    refine ⟨fun rest => ?_, fun {p q} parts ne => ⟨_, rfl, ?_⟩⟩
    · rw [readBytes, id, if_pos (by rw [List.length_append]; omega), List.take_left,
        List.drop_left]
    · have := List.length_pos_iff.2 ne
      rw [id] at parts
      rw [readBytes, if_neg (by rw [parts, List.length_append]; omega)]
  written {s w rest} ok := by
    rw [readBytes] at ok
    split at ok
    next enough =>
      obtain ⟨rfl, rfl⟩ := Prod.mk.inj (Except.ok.inj ok)
      exact ⟨List.length_take_of_le enough, (List.take_append_drop count s).symm⟩
    · nomatch ok

/-- A word has room for no larger number. -/
theorem ofWord_lt (bytes : List UInt8) : ofWord bytes < Nat.pow 256 bytes.length := by
  induction bytes with
  | nil => exact Nat.one_pos
  | cons b rest ih =>
    have := b.toNat_lt
    rw [ofWord, List.length_cons, show Nat.pow 256 (rest.length + 1) =
      Nat.pow 256 rest.length * 256 from rfl]
    omega

/-- A number that has room in a word is read back. -/
theorem readWord_undoes (width : Nat) :
    Undoes (readWord width) (word width) (· < Nat.pow 256 width) := by
  refine (readBytes_undoes width).map (fun n small => ?_) ?_
  · exact ⟨word width n, length_word width n, ofWord_word small⟩
  · rintro w rfl
    exact ⟨ofWord_lt w, word_ofWord w⟩

/-- What the length of a text or list has to stay below. -/
def lengthLimit : Nat := Nat.pow 256 8

/-- So is a length of fewer than 64 bits. -/
theorem readLength_undoes : Undoes readLength writeLength (· < lengthLimit) := readWord_undoes 8

/-- So is every byte. -/
theorem readByte_undoes : Undoes readByte writeByte fun _ => True where
  delimits {b} _ := by
    refine ⟨fun rest => rfl, fun {p q} parts ne => ?_⟩
    cases p with
    | nil => exact ⟨_, rfl, rfl⟩
    | cons c p =>
      obtain ⟨-, rest⟩ := List.cons.inj parts
      exact absurd (List.append_eq_nil_iff.1 rest.symm).2 ne
  written {s b rest} ok := by
    cases s with
    | nil => nomatch ok
    | cons c s =>
      obtain ⟨rfl, rfl⟩ := Prod.mk.inj (Except.ok.inj ok)
      exact ⟨trivial, rfl⟩

/-- So is every 64-bit integer, whose word is its residue. -/
theorem readInt64_undoes : Undoes readInt64 writeInt64 fun _ => True := by
  refine (readWord_undoes 8).map (fun n _ => ?_) fun v small => ⟨trivial, ?_⟩
  · refine ⟨n.toUInt64.toNat, n.toUInt64.toNat_lt, ?_⟩
    rw [UInt64.ofNat_toNat]
    rfl
  · show word 8 (UInt64.ofNat v).toNat = word 8 v
    rw [UInt64.toNat_ofNat', Nat.mod_eq_of_lt small]

/-- So is a truth value; no other byte is taken for one. -/
theorem readTruth_undoes : Undoes readTruth writeTruth fun _ => True := by
  refine (readByte_undoes.bind (fun truth => if truth then 1 else 0) (fun _ => []) (fun _ => True)
    fun b => ?_).congr (fun _ => rfl) fun _ => (and_true _).to_iff.symm
  split
  next zero => exact .pure fun truth => by cases truth <;> simp [zero]
  next nonzero =>
    split
    next one => exact .pure fun truth => by cases truth <;> simp [one]
    next other =>
      exact .throw fun truth => by cases truth <;> simp [Ne.symm nonzero, Ne.symm other]

/-! ## Texts -/

/-- A text is short enough for its length to be written. -/
def TextFits (s : String) : Prop := (Utf8.ofString s).length < lengthLimit

instance (s : String) : Decidable (TextFits s) := Nat.decLt _ _

/-- So is a text, if there is room for its length. -/
theorem readText_undoes : Undoes readText writeText TextFits := by
  refine (readLength_undoes.bind (fun s => (Utf8.ofString s).length) _ _ fun length =>
    (readBytes_undoes length).bind Utf8.ofString (fun _ => []) (fun _ => True)
      fun bytes => ?_).congr (fun s => ?_) fun _ => (and_true _).to_iff.symm
  · cases decoded : Utf8.decode bytes with
    | ok text =>
      have written : bytes = Utf8.ofString (String.ofList text) := by
        rw [Utf8.decode_eq_ok_iff.1 decoded, Utf8.ofString, String.toList_ofList]
      refine .pure fun s => (and_true _).to_iff.trans ?_
      rw [written, Utf8.ofString_inj]
    | error fault =>
      refine .throw fun s h => ?_
      rw [← h.1, Utf8.ofString, Utf8.decode_encode] at decoded
      cases decoded
  · rw [List.append_nil]
    rfl

/-! ## Lists -/

variable {item : Reader α} {write : α → List UInt8} {fits : α → Prop}

/-- A list is short enough for its length to be written, and its items fit. -/
def ListFits (fits : α → Prop) (items : List α) : Prop :=
  items.length < lengthLimit ∧ ∀ a ∈ items, fits a

instance [DecidablePred fits] (items : List α) : Decidable (ListFits fits items) :=
  inferInstanceAs (Decidable (_ ∧ _))

/-- So are items, one after the other. -/
theorem readItems_undoes (h : Undoes item write fits) (count : Nat) :
    Undoes (readItems item count) (·.flatMap write)
      fun items => items.length = count ∧ ∀ a ∈ items, fits a where
  delimits := by
    rintro items ⟨rfl, all⟩
    induction items with
    | nil => exact .pure _
    | cons a rest ih =>
      obtain ⟨first, others⟩ := List.forall_mem_cons.1 all
      rw [List.flatMap_cons]
      exact (h.delimits first).bind ((ih others).map (a :: ·))
  written {s items rest} ok := by
    induction count generalizing s items with
    | zero =>
      obtain ⟨rfl, rfl⟩ := Prod.mk.inj (Except.ok.inj ok)
      exact ⟨⟨rfl, List.forall_mem_nil _⟩, rfl⟩
    | succ count ih =>
      obtain ⟨a, s₁, first, behind⟩ := run_bind_eq_ok_iff.1 ok
      obtain ⟨others, s₂, more, done⟩ := run_bind_eq_ok_iff.1 behind
      obtain ⟨rfl, rfl⟩ := Prod.mk.inj (Except.ok.inj done)
      obtain ⟨ha, rfl⟩ := h.written first
      obtain ⟨⟨rfl, all⟩, rfl⟩ := ih more
      rw [List.flatMap_cons, List.append_assoc]
      exact ⟨⟨rfl, List.forall_mem_cons.2 ⟨ha, all⟩⟩, rfl⟩

/-- **A list is undone if its items are.** -/
theorem readList_undoes (h : Undoes item write fits) :
    Undoes (readList item) (writeList write) (ListFits fits) :=
  readLength_undoes.bind List.length _ _ (readItems_undoes h)

/-! ## Variants -/

/-- **A variant is undone if what comes with each index is.** -/
theorem readVariant_undoes {variants : List (Reader α)} (index : α → Nat)
    (few : variants.length ≤ Nat.pow 256 4) (known : ∀ a, index a < variants.length)
    (h : ∀ i r, variants[i]? = some r → Undoes r write fun a => index a = i ∧ fits a) :
    Undoes (readVariant variants) (fun a => writeVariant (index a) ++ write a) fits := by
  refine ((readWord_undoes 4).bind index write fits fun i => ?_).congr (fun _ => rfl) fun a =>
    (and_iff_right (Nat.lt_of_lt_of_le (known a) few)).symm
  cases there : variants[i]? with
  | some r => exact h i r there
  | none =>
    refine .throw ?_
    rintro a ⟨rfl, -⟩
    exact absurd (known a) (Nat.not_lt.2 (List.getElem?_eq_none_iff.1 there))

end PropertyGraph.Binary
