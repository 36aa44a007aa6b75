import PropertyGraph.Proofs.Outcome
import PropertyGraph.Text.Utf8

/-!
# Texts and their bytes

Strict UTF-8 gives every text one run of bytes and reads nothing else: `decode_eq_ok_iff`. The bytes
of one character are a `Sequence`, which says what each byte carries of the code point; writing and
reading are both held against it, and neither against the other. So what can be read is what is
`WellFormed`, sequence by sequence (`wellFormed_iff`).

The order of texts, character by character, is the order of their bytes
(`ofString_lt_ofString`).
-/

namespace PropertyGraph.Utf8

/-! ## The bytes of a character -/

/-- **The bytes of a code point**: the first tells how many there are, and each of the others
carries six bits. -/
inductive Sequence : Nat → List UInt8 → Prop
  | one {n : Nat} {a : UInt8} : n < 0x80 → a.toNat = n → Sequence n [a]
  | two {n : Nat} {a b : UInt8} : 0x80 ≤ n → n < 0x800 → a.toNat = 0xC0 + n / 0x40 →
      b.toNat = 0x80 + n % 0x40 → Sequence n [a, b]
  | three {n : Nat} {a b c : UInt8} : 0x800 ≤ n → n < 0x10000 → n < 0xD800 ∨ 0xDFFF < n →
      a.toNat = 0xE0 + n / 0x1000 → b.toNat = 0x80 + n / 0x40 % 0x40 →
      c.toNat = 0x80 + n % 0x40 → Sequence n [a, b, c]
  | four {n : Nat} {a b c d : UInt8} : 0x10000 ≤ n → n < 0x110000 →
      a.toNat = 0xF0 + n / 0x40000 → b.toNat = 0x80 + n / 0x1000 % 0x40 →
      c.toNat = 0x80 + n / 0x40 % 0x40 → d.toNat = 0x80 + n % 0x40 → Sequence n [a, b, c, d]

/-- What a character is encoded as is a sequence for its number. -/
theorem sequence_encodeChar (c : Char) : Sequence c.toNat (String.utf8EncodeChar c) := by
  have valid : c.toNat.isValidChar := c.valid
  unfold Nat.isValidChar at valid
  unfold String.utf8EncodeChar
  simp only [show c.val.toNat = c.toNat from rfl]
  split
  · exact .one (by omega) (by rw [UInt8.toNat_ofNat']; omega)
  · split
    · refine .two (by omega) (by omega) ?_ ?_ <;> (rw [UInt8.toNat_ofNat']; omega)
    · split
      · refine .three (by omega) (by omega) (by omega) ?_ ?_ ?_ <;>
          (rw [UInt8.toNat_ofNat']; omega)
      · refine .four (by omega) (by omega) ?_ ?_ ?_ ?_ <;> (rw [UInt8.toNat_ofNat']; omega)

/-- Which bytes may continue a sequence. -/
theorem isTail_iff {b : UInt8} : isTail b ↔ 0x80 ≤ b.toNat ∧ b.toNat ≤ 0xBF := by
  simp only [isTail, Bool.and_eq_true, decide_eq_true_eq, UInt8.le_iff_toNat_le,
    UInt8.reduceToNat]

/-- Which bytes may come second in a sequence of three: not those of an overlong one, nor those of a
surrogate. -/
theorem secondOfThree_iff {a b : UInt8} : secondOfThree a b ↔
    (if a.toNat = 0xE0 then 0xA0 else 0x80) ≤ b.toNat ∧
      b.toNat ≤ (if a.toNat = 0xED then 0x9F else 0xBF) := by
  simp only [secondOfThree, Bool.and_eq_true, decide_eq_true_eq, UInt8.le_iff_toNat_le,
    ← UInt8.toNat_inj, apply_ite UInt8.toNat, UInt8.reduceToNat]

/-- Which bytes may come second in a sequence of four: not those of an overlong one, nor those
beyond the last character. -/
theorem secondOfFour_iff {a b : UInt8} : secondOfFour a b ↔
    (if a.toNat = 0xF0 then 0x90 else 0x80) ≤ b.toNat ∧
      b.toNat ≤ (if a.toNat = 0xF4 then 0x8F else 0xBF) := by
  simp only [secondOfFour, Bool.and_eq_true, decide_eq_true_eq, UInt8.le_iff_toNat_le,
    ← UInt8.toNat_inj, apply_ite UInt8.toNat, UInt8.reduceToNat]

namespace Sequence

variable {m n : Nat} {s t : List UInt8}

/-- No sequence is empty. -/
theorem ne_nil (h : Sequence n s) : s ≠ [] := by
  cases h <;> exact List.cons_ne_nil _ _

/-- A sequence is for the number of a character. -/
theorem isValidChar (h : Sequence n s) : n.isValidChar := by
  unfold Nat.isValidChar
  cases h <;> omega

/-- The character with this number has this number. -/
theorem toNat_ofNat (h : Sequence n s) : (Char.ofNat n).toNat = n := by
  rw [Char.ofNat, dif_pos h.isValidChar]
  rfl

/-- A code point has no two sequences. -/
theorem unique (h : Sequence n s) (h' : Sequence n t) : s = t := by
  cases h <;> cases h' <;> try omega
  all_goals
    simp only [List.cons.injEq, and_true, ← UInt8.toNat_inj]
    omega

/-- That character is encoded as the sequence. -/
theorem encodeChar_ofNat (h : Sequence n s) : String.utf8EncodeChar (Char.ofNat n) = s := by
  have own := sequence_encodeChar (Char.ofNat n)
  rw [h.toNat_ofNat] at own
  exact own.unique h

/-- A byte of a character beyond ASCII is no ASCII byte. -/
theorem le_of_mem (h : Sequence n s) (beyond : 0x80 ≤ n) {b : UInt8} (hb : b ∈ s) :
    0x80 ≤ b.toNat := by
  cases h <;> simp only [List.mem_cons, List.not_mem_nil, or_false] at hb <;>
    rcases hb with rfl | rfl | rfl | rfl <;> omega

/-- The sequence of the lesser code point comes first, whatever stands behind the two. -/
theorem append_lt_append (h : Sequence m s) (h' : Sequence n t) (lt : m < n)
    (x y : List UInt8) : s ++ x < t ++ y := by
  cases h <;> cases h' <;> try omega
  all_goals
    simp only [List.cons_append, List.nil_append, List.cons_lt_cons_iff, UInt8.lt_iff_toNat_lt,
      ← UInt8.toNat_inj]
    omega

/-- A sequence in front is read as its character. -/
theorem decodeFrom_append (h : Sequence n s) (index : Nat) (rest : List UInt8) :
    decodeFrom index (s ++ rest) =
      (Char.ofNat n :: ·) <$> decodeFrom (index + s.length) rest := by
  rw [decodeFrom.eq_def]
  simp only [UInt8.lt_iff_toNat_lt, UInt8.le_iff_toNat_le, UInt8.reduceToNat, Bool.and_eq_true,
    decide_eq_true_eq]
  cases h with
  | one small ha =>
    rw [List.singleton_append]
    dsimp only
    rw [if_pos (by omega), ha]
    rfl
  | @two a b low high ha hb =>
    have second : isTail b := isTail_iff.2 (by omega)
    have number : (a.toNat - 0xC0) * 0x40 + payload b = n := by
      unfold payload
      omega
    simp only [List.cons_append, List.nil_append]
    rw [if_neg (by omega), if_pos (by omega), if_pos second, number]
    rfl
  | @three a b c low high free ha hb hc =>
    have second : secondOfThree a b := secondOfThree_iff.2 (by split <;> split <;> omega)
    have third : isTail c := isTail_iff.2 (by omega)
    have number : ((a.toNat - 0xE0) * 0x40 + payload b) * 0x40 + payload c = n := by
      unfold payload
      omega
    simp only [List.cons_append, List.nil_append]
    rw [if_neg (by omega), if_neg (by omega), if_pos (by omega), if_pos second, if_pos third,
      number]
    rfl
  | @four a b c d low high ha hb hc hd =>
    have second : secondOfFour a b := secondOfFour_iff.2 (by split <;> split <;> omega)
    have third : isTail c := isTail_iff.2 (by omega)
    have fourth : isTail d := isTail_iff.2 (by omega)
    have number :
        (((a.toNat - 0xF0) * 0x40 + payload b) * 0x40 + payload c) * 0x40 + payload d = n := by
      unfold payload
      omega
    simp only [List.cons_append, List.nil_append]
    rw [if_neg (by omega), if_neg (by omega), if_neg (by omega), if_pos (by omega),
      if_pos second, if_pos third, if_pos fourth, number]
    rfl

end Sequence

/-! ## Reading what was written -/

theorem encode_cons (c : Char) (text : List Char) :
    encode (c :: text) = String.utf8EncodeChar c ++ encode text := rfl

/-- An ASCII character is one byte. -/
theorem encodeChar_ascii {c : Char} (ascii : c.toNat < 0x80) :
    String.utf8EncodeChar c = [UInt8.ofNat c.toNat] := by
  have written : Sequence c.toNat [UInt8.ofNat c.toNat] := .one ascii (by
    rw [UInt8.toNat_ofNat']
    omega)
  exact (sequence_encodeChar c).unique written

/-- A text in ASCII has one byte for each character. -/
theorem encode_ascii {text : List Char} (ascii : ∀ c ∈ text, c.toNat < 0x80) :
    encode text = text.map fun c => UInt8.ofNat c.toNat := by
  induction text with
  | nil => rfl
  | cons c text ih =>
    obtain ⟨first, others⟩ := List.forall_mem_cons.1 ascii
    rw [encode_cons, encodeChar_ascii first, ih others]
    rfl

/-- The index that an error would tell has no bearing on what is decoded. -/
theorem decodeFrom_encode (index : Nat) (text : List Char) :
    decodeFrom index (encode text) = .ok text := by
  induction text generalizing index with
  | nil => rfl
  | cons c rest ih =>
    rw [encode_cons, (sequence_encodeChar c).decodeFrom_append, ih, Char.ofNat_toNat]
    rfl

/-- **What has been encoded is decoded to the text again.** -/
theorem decode_encode (text : List Char) : decode (encode text) = .ok text :=
  decodeFrom_encode 0 text

/-- Different texts have different encodings. -/
theorem encode_inj {s t : List Char} : encode s = encode t ↔ s = t := by
  refine ⟨fun h => Except.ok.inj (ε := Fault) ?_, congrArg encode⟩
  rw [← decode_encode, ← decode_encode, h]

/-- So have different strings. -/
theorem ofString_inj {s t : String} : ofString s = ofString t ↔ s = t :=
  encode_inj.trans String.toList_inj

/-! ## Nothing else is read -/

/-- Whatever is decoded is the encoding of what it is decoded to. -/
theorem encode_of_decodeFrom {index : Nat} {bytes : List UInt8} {text : List Char}
    (h : decodeFrom index bytes = .ok text) : encode text = bytes := by
  -- apart from the end, only the four cases of a whole sequence do not fail
  fun_induction decodeFrom index bytes generalizing text with
  | case1 =>
    obtain rfl := Except.ok.inj h
    rfl
  | case2 index a rest one ih =>
    obtain ⟨behind, read, rfl⟩ := map_eq_ok_iff.1 h
    have sequence : Sequence a.toNat [a] := .one (UInt8.lt_iff_toNat_lt.1 one) rfl
    rw [encode_cons, sequence.encodeChar_ofNat, ih read]
    rfl
  | case4 index a _ two b rest second ih =>
    obtain ⟨behind, read, rfl⟩ := map_eq_ok_iff.1 h
    rw [isTail_iff] at second
    simp only [Bool.and_eq_true, decide_eq_true_eq, UInt8.le_iff_toNat_le,
      UInt8.reduceToNat] at two
    have sequence : Sequence ((a.toNat - 0xC0) * 0x40 + payload b) [a, b] := by
      unfold payload
      refine .two ?_ ?_ ?_ ?_ <;> omega
    rw [encode_cons, sequence.encodeChar_ofNat, ih read]
    rfl
  | case8 index a _ _ three b second c rest third ih =>
    obtain ⟨behind, read, rfl⟩ := map_eq_ok_iff.1 h
    rw [secondOfThree_iff] at second
    rw [isTail_iff] at third
    simp only [Bool.and_eq_true, decide_eq_true_eq, UInt8.le_iff_toNat_le,
      UInt8.reduceToNat] at three
    have sequence :
        Sequence (((a.toNat - 0xE0) * 0x40 + payload b) * 0x40 + payload c) [a, b, c] := by
      unfold payload
      refine .three ?_ ?_ ?_ ?_ ?_ ?_ <;> (split at second <;> split at second <;> omega)
    rw [encode_cons, sequence.encodeChar_ofNat, ih read]
    rfl
  | case14 index a _ _ _ four b second c third d rest fourth ih =>
    obtain ⟨behind, read, rfl⟩ := map_eq_ok_iff.1 h
    rw [secondOfFour_iff] at second
    rw [isTail_iff] at third fourth
    simp only [Bool.and_eq_true, decide_eq_true_eq, UInt8.le_iff_toNat_le,
      UInt8.reduceToNat] at four
    have sequence : Sequence
        ((((a.toNat - 0xF0) * 0x40 + payload b) * 0x40 + payload c) * 0x40 + payload d)
        [a, b, c, d] := by
      unfold payload
      refine .four ?_ ?_ ?_ ?_ ?_ ?_ <;> (split at second <;> split at second <;> omega)
    rw [encode_cons, sequence.encodeChar_ofNat, ih read]
    rfl
  | _ => nomatch h

/-- **Reading accepts exactly what writing makes.** -/
theorem decode_eq_ok_iff {bytes : List UInt8} {text : List Char} :
    decode bytes = .ok text ↔ bytes = encode text :=
  ⟨fun h => (encode_of_decodeFrom h).symm, fun h => h ▸ decode_encode text⟩

/-- **Well-formed bytes**: the bytes of code points one after the other, each in the only number of
bytes that its size allows, and no surrogate among them. -/
inductive WellFormed : List UInt8 → Prop
  | nil : WellFormed []
  | append {n s rest} : Sequence n s → WellFormed rest → WellFormed (s ++ rest)

/-- **Bytes are well formed exactly if some text is encoded as them.** -/
theorem wellFormed_iff {bytes : List UInt8} : WellFormed bytes ↔ ∃ text, bytes = encode text := by
  constructor
  · intro h
    induction h with
    | nil => exact ⟨[], rfl⟩
    | @append n s rest sequence _ ih =>
      obtain ⟨text, rfl⟩ := ih
      exact ⟨Char.ofNat n :: text, by rw [encode_cons, sequence.encodeChar_ofNat]⟩
  · rintro ⟨text, rfl⟩
    induction text with
    | nil => exact .nil
    | cons c text ih => exact .append (sequence_encodeChar c) ih

/-! ## Order -/

/-- **Encoding keeps the order of texts**, which is by code points, as the order of bytes. -/
theorem encode_lt_encode {s t : List Char} (h : s < t) : encode s < encode t := by
  induction s generalizing t with
  | nil =>
    cases t with
    | nil => exact absurd h (List.not_lt_nil _)
    | cons d t =>
      obtain ⟨b, rest, first⟩ := List.exists_cons_of_ne_nil (sequence_encodeChar d).ne_nil
      rw [encode_cons, first]
      exact List.nil_lt_cons _ _
  | cons c s ih =>
    cases t with
    | nil => exact absurd h (List.not_lt_nil _)
    | cons d t =>
      rw [encode_cons, encode_cons]
      rcases List.cons_lt_cons_iff.1 h with lt | ⟨rfl, lt⟩
      · exact (sequence_encodeChar c).append_lt_append (sequence_encodeChar d) lt _ _
      · exact List.append_left_lt (ih lt)

/-- **Texts are in the order of their bytes.** -/
theorem ofString_lt_ofString {s t : String} (h : s < t) : ofString s < ofString t :=
  encode_lt_encode (String.lt_iff.1 h)

end PropertyGraph.Utf8
