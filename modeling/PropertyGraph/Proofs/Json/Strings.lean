import Mathlib.Tactic.SplitIfs
import PropertyGraph.Json.Reader
import PropertyGraph.Json.Tree
import PropertyGraph.Proofs.Reading
import PropertyGraph.Proofs.Text.Encoding

/-!
# Words and strings in a JSON text

A word or string that is written is read back and delimited: where the text was cut off inside of
it, the error is one of those for a text that ends too early (`EndsEarly`), also when the cut is
inside an escape or inside the bytes of one character. The reader takes a string byte by byte up to
its closing quote and looks at characters only then.
-/

namespace PropertyGraph.Json

/-- The text ends too early. -/
def EndsEarly (e : Error) : Prop := e.category = .unfinished

theorem endsEarly_unfinished (inside : Unfinished) : EndsEarly (.unfinished inside) := rfl

/-! ## Blanks -/

/-- Blanks end in front of what is none. -/
theorem skipBlanks_cons {b : UInt8} (h : isBlank b = false) (s : List UInt8) :
    skipBlanks (b :: s) = b :: s :=
  List.dropWhile_cons_of_neg (by rw [h]; decide)

/-- A value starts at the first byte that is no blank. -/
theorem value_cons {α : Type} {go : UInt8 → List UInt8 → Except Error (α × List UInt8)} {b : UInt8}
    (h : isBlank b = false) (s : List UInt8) : Reader.value go (b :: s) = go b s := by
  rw [Reader.value, skipBlanks_cons h]

/-- A reader for something that starts with a byte other than a blank. -/
theorem value_delimits {α : Type} {go : UInt8 → List UInt8 → Except Error (α × List UInt8)}
    {b : UInt8} {w : List UInt8} {a : α} (h : isBlank b = false)
    (behind : Delimits EndsEarly (go b) w a) : Delimits EndsEarly (Reader.value go) (b :: w) a :=
  .cons (value_cons h) ⟨_, endsEarly_unfinished .value, rfl⟩ behind

/-! ## Words -/

/-- A word is delimited by its own letters. -/
theorem readIdent_delimits {α : Type} (word : List Char) (a : α) :
    Delimits EndsEarly (fun s => (a, ·) <$> readIdent word s) (word.map byte) a := by
  induction word with
  | nil => exact .pure a
  | cons c word ih =>
    refine .cons (fun s => ?_) ⟨_, endsEarly_unfinished .value, rfl⟩ ih
    rw [readIdent, if_pos rfl]

/-! ## Characters -/

theorem encodeChar_ascii {c : Char} (ascii : c.toNat < 0x80) :
    String.utf8EncodeChar c = [byte c] := Utf8.encodeChar_ascii ascii

/-- A text in ASCII has one byte for each character. -/
theorem encode_ascii {text : List Char} (ascii : ∀ c ∈ text, c.toNat < 0x80) :
    Utf8.encode text = text.map byte := Utf8.encode_ascii ascii

/-- Hexadecimal digits are in ASCII. -/
theorem hexDigit_ascii {n : Nat} (h : n < 16) : (hexDigit n).toNat < 0x80 := by
  have all : ∀ n : Fin 16, (hexDigit n).toNat < 0x80 := by decide
  exact all ⟨n, h⟩

/-- A hexadecimal digit is read as what it was written for. -/
theorem hexDigit?_hexDigit {n : Nat} (h : n < 16) : hexDigit? (byte (hexDigit n)) = some n := by
  have all : ∀ n : Fin 16, hexDigit? (byte (hexDigit n)) = some n.val := by decide
  exact all ⟨n, h⟩

/-! ## Escapes -/

/-- Four hexadecimal digits are a number. -/
theorem readHex_delimits {a b c d : UInt8} {i j k l : Nat} (ha : hexDigit? a = some i)
    (hb : hexDigit? b = some j) (hc : hexDigit? c = some k) (hd : hexDigit? d = some l) :
    Delimits EndsEarly readHex [a, b, c, d] (((i * 16 + j) * 16 + k) * 16 + l) where
  whole rest := by simp only [List.cons_append, List.nil_append, readHex, ha, hb, hc, hd]
  cut {p q} parts ne := by
    have short := congrArg List.length parts
    have := List.length_pos_iff.2 ne
    rw [List.length_append] at short
    refine ⟨_, endsEarly_unfinished .string, ?_⟩
    match p with
    | [] | [_] | [_, _] | [_, _, _] => rfl
    | _ :: _ :: _ :: _ :: _ =>
      simp only [List.length_cons, List.length_nil] at short
      omega

/-- Below the surrogates a number stands for its character by itself. -/
theorem readUnicode_delimits {w : List UInt8} {n : Nat} (h : Delimits EndsEarly readHex w n)
    (low : n < 0xD800) : Delimits EndsEarly readUnicode w (Char.ofNat n) where
  whole rest := by
    rw [readUnicode, h.whole]
    simp only [show ¬ (0xDC00 ≤ n ∧ n ≤ 0xDFFF) by omega, show ¬ (0xD800 ≤ n ∧ n ≤ 0xDBFF) by omega,
      if_false]
  cut parts ne := by
    obtain ⟨e, he, fails⟩ := h.cut parts ne
    exact ⟨e, he, by rw [readUnicode, fails]⟩

/-- An escape by number, for a control character. -/
theorem readEscape_number {c : Char} (control : c.toNat < 0x20) :
    Delimits EndsEarly readEscape
      (byte 'u' :: [byte '0', byte '0', byte (hexDigit (c.toNat / 16)),
        byte (hexDigit (c.toNat % 16))]) c := by
  have digits := readHex_delimits (hexDigit?_hexDigit (n := 0) (by decide))
    (hexDigit?_hexDigit (n := 0) (by decide)) (hexDigit?_hexDigit (n := c.toNat / 16) (by omega))
    (hexDigit?_hexDigit (n := c.toNat % 16) (by omega))
  rw [show ((0 * 16 + 0) * 16 + c.toNat / 16) * 16 + c.toNat % 16 = c.toNat by omega] at digits
  have read := readUnicode_delimits digits (by omega)
  rw [Char.ofNat_toNat] at read
  exact .cons (fun s => rfl) ⟨_, endsEarly_unfinished .string, rfl⟩ read

/-- An escape of one letter. -/
theorem readEscape_short {b : UInt8} {c : Char} (known : shortEscape? b = some c) :
    Delimits EndsEarly readEscape [b] c :=
  .cons (fun s => by rw [readEscape, known]; rfl) ⟨_, endsEarly_unfinished .string, rfl⟩ (.pure c)

/-! ## Contents of strings -/

/-- A byte that stands for itself in a string. -/
def IsPlain (b : UInt8) : Prop := b ≠ byte '"' ∧ b ≠ byte '\\' ∧ ¬ b < 0x20

/-- A plain byte is taken over. -/
theorem readContent_plain {b : UInt8} (plain : IsPlain b) (s : List UInt8) :
    readContent (b :: s) = ((b :: ·) <$> readContent : Reader (List UInt8)) s := by
  rw [readContent, if_neg plain.1, if_neg plain.2.1, if_neg plain.2.2]
  cases read : readContent s with
  | error e => exact (run_map_of_error read).symm
  | ok r => exact (run_map_of_ok read).symm

/-- An escape is replaced by what it stands for. -/
theorem readContent_escape (s : List UInt8) :
    readContent (byte '\\' :: s) = (do
      let c ← readEscape
      let content ← readContent
      return String.utf8EncodeChar c ++ content : Reader (List UInt8)) s := by
  rw [readContent, if_neg (by decide), if_pos rfl]
  split
  next e read => exact (run_bind_of_error read).symm
  next c rest read =>
    rw [run_bind_of_ok read]
    cases more : readContent rest with
    | error e => exact (run_bind_of_error more).symm
    | ok r =>
      rw [run_bind_of_ok more]
      rfl

/-- The closing quote. -/
theorem readContent_quote : Delimits EndsEarly readContent [byte '"'] [] :=
  .cons (fun s => by rw [readContent, if_pos rfl]; rfl) ⟨_, endsEarly_unfinished .string, by
    rw [readContent]⟩ (.pure [])

section Content

variable {w content : List UInt8} (h : Delimits EndsEarly readContent w content)

include h

/-- A run of plain bytes in front of a content is read with it. -/
theorem readContent_delimits_plain {bytes : List UInt8} (plain : ∀ b ∈ bytes, IsPlain b) :
    Delimits EndsEarly readContent (bytes ++ w) (bytes ++ content) := by
  induction bytes with
  | nil => exact h
  | cons b rest ih =>
    obtain ⟨first, others⟩ := List.forall_mem_cons.1 plain
    exact .cons (readContent_plain first) ⟨_, endsEarly_unfinished .string, by rw [readContent]⟩
      ((ih others).map (b :: ·))

/-- So is an escape. -/
theorem readContent_delimits_escape {w' : List UInt8} {c : Char}
    (escape : Delimits EndsEarly readEscape w' c) :
    Delimits EndsEarly readContent (byte '\\' :: (w' ++ w))
      (String.utf8EncodeChar c ++ content) :=
  .cons readContent_escape ⟨_, endsEarly_unfinished .string, by rw [readContent]⟩
    (escape.bind (h.map (String.utf8EncodeChar c ++ ·)))

end Content

/-! ## Strings -/

/-- The three ways in which a character is written. -/
theorem writeChar_cases (c : Char) :
    (∃ letter, shortEscape? (byte letter) = some c ∧ letter.toNat < 0x80 ∧
      writeChar c = ['\\', letter]) ∨
    (c.toNat < 0x20 ∧ writeChar c =
      ['\\', 'u', '0', '0', hexDigit (c.toNat / 16), hexDigit (c.toNat % 16)]) ∨
    (c ≠ '"' ∧ c ≠ '\\' ∧ ¬ c.toNat < 0x20) ∧ writeChar c = [c] := by
  unfold writeChar
  split_ifs with quote backslash b f n r t control
  · exact .inl ⟨'"', by rw [quote]; rfl, by decide, rfl⟩
  · exact .inl ⟨'\\', by rw [backslash]; rfl, by decide, rfl⟩
  · exact .inl ⟨'b', by rw [b]; rfl, by decide, rfl⟩
  · exact .inl ⟨'f', by rw [f]; rfl, by decide, rfl⟩
  · exact .inl ⟨'n', by rw [n]; rfl, by decide, rfl⟩
  · exact .inl ⟨'r', by rw [r]; rfl, by decide, rfl⟩
  · exact .inl ⟨'t', by rw [t]; rfl, by decide, rfl⟩
  · exact .inr (.inl ⟨control, rfl⟩)
  · exact .inr (.inr ⟨⟨quote, backslash, control⟩, rfl⟩)

/-- Bytes other than quote, backslash and control characters are plain. -/
theorem isPlain_of_toNat {b : UInt8} (quote : b.toNat ≠ 0x22) (backslash : b.toNat ≠ 0x5C)
    (control : 0x20 ≤ b.toNat) : IsPlain b := by
  refine ⟨fun eq => quote (eq ▸ rfl), fun eq => backslash (eq ▸ rfl), ?_⟩
  rw [UInt8.lt_iff_toNat_lt]
  exact Nat.not_lt.2 control

/-- All bytes of a character that needs no escape are plain. -/
theorem isPlain_of_mem_encodeChar {c : Char} (quote : c ≠ '"') (backslash : c ≠ '\\')
    (control : ¬ c.toNat < 0x20) {b : UInt8} (hb : b ∈ String.utf8EncodeChar c) : IsPlain b := by
  by_cases ascii : c.toNat < 0x80
  · rw [encodeChar_ascii ascii, List.mem_singleton] at hb
    have code : b.toNat = c.toNat := by
      rw [hb, byte, UInt8.toNat_ofNat']
      omega
    refine isPlain_of_toNat (fun eq => quote ?_) (fun eq => backslash ?_) (by omega)
    · exact Char.toNat_inj.1 (code.symm.trans eq)
    · exact Char.toNat_inj.1 (code.symm.trans eq)
  · have := (Utf8.sequence_encodeChar c).le_of_mem (by omega) hb
    exact isPlain_of_toNat (by omega) (by omega) (by omega)

/-- **Every character is read back** from the way in which it is written, whether by an escape or by
itself. -/
theorem readContent_delimits_char {w content : List UInt8} (c : Char)
    (h : Delimits EndsEarly readContent w content) :
    Delimits EndsEarly readContent (Utf8.encode (writeChar c) ++ w)
      (String.utf8EncodeChar c ++ content) := by
  rcases writeChar_cases c with ⟨letter, known, ascii, eq⟩ | ⟨control, eq⟩ | ⟨plain, eq⟩
  · rw [eq, encode_ascii (by simp [ascii])]
    exact readContent_delimits_escape h (readEscape_short known)
  · have high := hexDigit_ascii (n := c.toNat / 16) (by omega)
    have low := hexDigit_ascii (n := c.toNat % 16) (by omega)
    rw [eq, encode_ascii (by simp [high, low])]
    exact readContent_delimits_escape h (readEscape_number control)
  · rw [eq, Utf8.encode_cons, Utf8.encode, List.flatMap_nil, List.append_nil]
    exact readContent_delimits_plain h fun b hb =>
      isPlain_of_mem_encodeChar plain.1 plain.2.1 plain.2.2 hb

/-- By induction on the text, its content is read back up to the closing quote. -/
theorem readContent_delimits (text : List Char) :
    Delimits EndsEarly readContent (Utf8.encode (text.flatMap writeChar) ++ [byte '"'])
      (Utf8.encode text) := by
  induction text with
  | nil => exact readContent_quote
  | cons c text ih =>
    rw [List.flatMap_cons, Utf8.encode_append, List.append_assoc, Utf8.encode_cons]
    exact readContent_delimits_char c ih

/-- **A string is read back**, and not before its closing quote. -/
theorem readString_delimits (s : String) :
    Delimits EndsEarly readString (Utf8.encode (s.toList.flatMap writeChar) ++ [byte '"']) s where
  whole rest := by
    rw [readString, (readContent_delimits s.toList).whole]
    simp only [Utf8.decode_encode, String.ofList_toList]
  cut parts ne := by
    obtain ⟨e, he, fails⟩ := (readContent_delimits s.toList).cut parts ne
    exact ⟨e, he, by rw [readString, fails]⟩

/-- A written string as bytes. -/
theorem encode_writeString (s : String) : Utf8.encode (writeString s) =
    byte '"' :: (Utf8.encode (s.toList.flatMap writeChar) ++ [byte '"']) := by
  rw [writeString, Utf8.encode_append]
  rfl

end PropertyGraph.Json
