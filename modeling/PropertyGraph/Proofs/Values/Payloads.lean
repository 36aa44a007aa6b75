import Mathlib.Data.List.Forall2
import PropertyGraph.Proofs.Decimal.Numerals
import PropertyGraph.Value

/-!
# Payloads

A payload of a value is a run of bytes from which the value may be read, if its kind is known
(`Value.Payload`). The canonical encoding is one of them; the others are the redundant numerals of
an integer. `Value.decodeAs_eq_ok_iff` is that reading as a kind accepts exactly the payloads of the
values of this kind. From it follow that decoding undoes encoding, whatever the spelling of the
kind (`Value.decode_undoes_encode`), and what it accepts in all (`Value.decode_accepts_exactly`).
-/

namespace PropertyGraph

open Decimal (Numeral)

/-! ## Letters -/

/-- The small letters by their numbers. -/
theorem isLower_iff {c : Char} : c.isLower ↔ 97 ≤ c.toNat ∧ c.toNat ≤ 122 := by
  show (decide ('a'.val ≤ c.val) && decide (c.val ≤ 'z'.val)) = true ↔ _
  rw [Bool.and_eq_true, decide_eq_true_iff, decide_eq_true_iff]
  exact Iff.rfl

/-- Lowering moves capital letters and nothing else. -/
theorem toNat_toLower (c : Char) :
    c.toLower.toNat = if 65 ≤ c.toNat ∧ c.toNat ≤ 90 then c.toNat + 32 else c.toNat := by
  unfold Char.toLower
  simp only [ge_iff_le, UInt32.le_iff_toNat_le]
  split
  next capital =>
    have capital : 65 ≤ c.val.toNat ∧ c.val.toNat ≤ 90 := capital
    show (c.val + 32).toNat = _
    simp only [UInt32.toNat_add, UInt32.reduceToNat]
    exact (Nat.mod_eq_of_lt (by omega)).trans (if_pos capital).symm
  next other => exact (if_neg other).symm

/-- A capital letter is 32 below its small one. -/
theorem toNat_toUpper {c : Char} (small : c.isLower) : c.toUpper.toNat + 32 = c.toNat := by
  have range : 97 ≤ c.val.toNat ∧ c.val.toNat ≤ 122 := isLower_iff.1 small
  have within : 'a'.val ≤ c.val ∧ c.val ≤ 'z'.val := range
  unfold Char.toUpper
  rw [dif_pos within]
  show (c.val + ('A'.val - 'a'.val)).toNat + 32 = c.val.toNat
  simp only [UInt32.toNat_add, UInt32.reduceSub, UInt32.reduceToNat, Char.reduceVal]
  omega

/-- A small letter comes from itself and its capital one only. -/
theorem toLower_eq_iff {letter c : Char} (small : letter.isLower) :
    c.toLower = letter ↔ c = letter ∨ c = letter.toUpper := by
  have range := isLower_iff.1 small
  have upper := toNat_toUpper small
  rw [← Char.toNat_inj, ← Char.toNat_inj, ← Char.toNat_inj, toNat_toLower]
  split <;> omega

/-! ## Names of kinds -/

/-- **A word in some mixture of cases**: each letter is small or capital. -/
def Respells (word text : String) : Prop :=
  List.Forall₂ (fun letter c => c = letter ∨ c = letter.toUpper) word.toList text.toList

/-- **The ways of spelling a kind**: its name or its short name, in any mixture of cases. -/
def Kind.Spelled (kind : Kind) (text : String) : Prop :=
  Respells kind.name text ∨ Respells kind.shortName text

/-- Lowering a text gives a word exactly if it is that word in some mixture of cases. -/
theorem asciiLower_eq_iff {word text : String} (small : ∀ c ∈ word.toList, c.isLower) :
    asciiLower text = word ↔ Respells word text := by
  have letters : ∀ {w s : List Char}, (∀ c ∈ w, c.isLower) → (s.map Char.toLower = w ↔
      List.Forall₂ (fun letter c => c = letter ∨ c = letter.toUpper) w s) := by
    intro w
    induction w with
    | nil =>
      intro s _
      rw [List.map_eq_nil_iff, List.forall₂_nil_left_iff]
    | cons letter w ih =>
      intro s small
      obtain ⟨first, others⟩ := List.forall_mem_cons.1 small
      cases s with
      | nil => exact iff_of_false nofun nofun
      | cons c s =>
        rw [List.map_cons, List.cons.injEq, List.forall₂_cons, toLower_eq_iff first, ih others]
  rw [← String.toList_inj, asciiLower, String.toList_ofList, Respells]
  exact letters small

/-- **A text names a kind exactly if it is a way of spelling it.** -/
theorem Kind.ofName_eq_ok_iff {text : String} {kind : Kind} :
    ofName text = .ok kind ↔ kind.Spelled text := by
  have small : ∀ k : Kind, k.name.toList.all Char.isLower ∧
      k.shortName.toList.all Char.isLower := by
    intro k
    cases k <;> decide
  rw [Spelled, ← asciiLower_eq_iff (List.all_eq_true.1 (small kind).1),
    ← asciiLower_eq_iff (List.all_eq_true.1 (small kind).2)]
  unfold ofName
  generalize asciiLower text = lower
  constructor
  · intro h
    dsimp only at h
    split at h
    next found =>
      cases h
      simpa using List.find?_some found
    next => nomatch h
  · -- no two of the names and short names are the same
    rintro (rfl | rfl) <;> cases kind <;> rfl

namespace Value

/-! ## Payloads -/

/-- **What a value may be read from**, if its kind is known. -/
inductive Payload : Value → List UInt8 → Prop
  /-- A text in UTF-8. -/
  | string {text} : Payload (string text) (Utf8.ofString text)
  /-- A numeral of a number. -/
  | integer {number : Int64} {n : Numeral} : number.toInt = n.number →
    Payload (integer number) n.bytes
  /-- A truth value in words. -/
  | boolean {truth} : Payload (boolean truth) (Utf8.ofString (truthText truth))
  /-- Any bytes. -/
  | bytes {payload} : Payload (bytes payload) payload

/-- **Reading accepts exactly the payloads of the kind.** -/
theorem decodeAs_eq_ok_iff {kind : Kind} {payload : List UInt8} {v : Value} :
    decodeAs kind payload = .ok v ↔ v.kind = kind ∧ v.Payload payload := by
  unfold decodeAs
  constructor
  · intro h
    split at h
    case h_1 =>
      cases h
      exact ⟨rfl, .bytes⟩
    case h_2 =>
      split at h
      next text read =>
        cases h
        have own : (string (String.ofList text)).Payload (Utf8.ofString (String.ofList text)) :=
          .string
        rw [Utf8.ofString, String.toList_ofList, ← Utf8.decode_eq_ok_iff.1 read] at own
        exact ⟨rfl, own⟩
      next => nomatch h
    case h_3 =>
      split at h
      next text read =>
        split at h
        next number found =>
          cases h
          obtain ⟨n, rfl, value⟩ := Decimal.int64?_eq_some_iff.1 found
          rw [Utf8.decode_eq_ok_iff.1 read, n.encode_chars]
          exact ⟨rfl, .integer value⟩
        next => nomatch h
      next => nomatch h
    case h_4 =>
      split at h
      next yes =>
        cases h
        exact ⟨rfl, yes ▸ .boolean⟩
      next =>
        split at h
        next no =>
          cases h
          exact ⟨rfl, no ▸ .boolean⟩
        next => nomatch h
  · rintro ⟨rfl, payload⟩
    cases payload with
    | @string text =>
      simp only [kind, Utf8.ofString, Utf8.decode_encode, String.ofList_toList]
    | @integer number n value =>
      simp only [kind, ← n.encode_chars, Utf8.decode_encode,
        Decimal.int64?_eq_some_iff.2 ⟨n, rfl, value⟩]
    | @boolean truth => cases truth <;> rfl
    | bytes => rfl

/-- Reading fails for one reason only, and of opaque bytes it never fails. -/
theorem decodeAs_eq_error_iff {kind : Kind} {payload : List UInt8} {e : ValueError} :
    decodeAs kind payload = .error e ↔
      (∃ coded, e = .malformed kind coded) ∧ ∀ v : Value, v.kind = kind → ¬ v.Payload payload := by
  have fails : ∀ {e}, decodeAs kind payload = .error e → ∃ coded, e = .malformed kind coded := by
    intro e h
    unfold decodeAs at h
    (repeat' split at h) <;> cases h <;> exact ⟨_, rfl⟩
  simp only [← not_and, ← decodeAs_eq_ok_iff]
  constructor
  · intro h
    exact ⟨fails h, fun v ok => nomatch h.symm.trans ok⟩
  · rintro ⟨⟨coded, rfl⟩, none⟩
    cases read : decodeAs kind payload with
    | ok v => exact absurd read (none v)
    | error e =>
      obtain ⟨_, rfl⟩ := fails read
      rfl

/-! ## The canonical encoding -/

/-- The canonical encoding is a payload. -/
theorem payload_encode (v : Value) : v.Payload v.encode := by
  cases v with
  | string text => exact .string
  | integer number =>
    obtain ⟨n, written, value⟩ := Numeral.exists_chars_eq number.toInt
    have encoded : (integer number).encode = n.bytes := by
      rw [← n.encode_chars, ← written]
      rfl
    exact encoded ▸ .integer value.symm
  | boolean truth => exact .boolean
  | bytes payload => exact .bytes

/-- Read as its own kind, it gives the value back. -/
theorem decodeAs_encode (v : Value) : decodeAs v.kind v.encode = .ok v :=
  decodeAs_eq_ok_iff.2 ⟨rfl, v.payload_encode⟩

/-- How a kind is spelled makes no difference. -/
theorem decode_eq_decodeAs {kind : Kind} {name : String} (spelled : kind.Spelled name)
    (payload : List UInt8) : decode name payload = decodeAs kind payload := by
  rw [decode, Kind.ofName_eq_ok_iff.2 spelled]
  rfl

/-- **Decoding undoes encoding.** Whatever the value, and however its kind is spelled, what it
encodes to is decoded to it again; and the bytes that it is found equal to are its encoding alone.
-/
theorem decode_undoes_encode (v : Value) :
    (∀ name, v.kind.Spelled name → decode name v.encode = .ok v) ∧
    ∀ payload, v.hasEncoding payload ↔ payload = v.encode := by
  refine ⟨fun name spelled => ?_, fun payload => ?_⟩
  · rw [decode_eq_decodeAs spelled, decodeAs_encode]
  · rw [hasEncoding, decide_eq_true_iff, eq_comm]

/-- The least number of all, with the short name of its kind in mixed case. -/
theorem decode_undoes_encode_of_least : Kind.integer.Spelled "iNT" ∧
    decode "iNT" (integer Int64.minValue).encode = .ok (integer Int64.minValue) := by
  have spelled : Kind.integer.Spelled "iNT" := .inr (by unfold Respells; decide)
  exact ⟨spelled, (decode_undoes_encode (integer Int64.minValue)).1 "iNT" spelled⟩

/-! ## Other payloads -/

/-- A payload of a value is its encoding, or it is a redundant numeral. -/
theorem Payload.encode_eq_iff {v : Value} {payload : List UInt8} (h : v.Payload payload) :
    v.encode = payload ↔
      ¬ (v.kind = .integer ∧ ∃ n : Numeral, payload = n.bytes ∧ n.Redundant) := by
  cases h with
  | string => exact iff_of_true rfl nofun
  | boolean => exact iff_of_true rfl nofun
  | bytes => exact iff_of_true rfl nofun
  | @integer number n value =>
    have written : (Value.integer number).encode = n.bytes ↔ ¬ n.Redundant := by
      rw [← n.chars_eq_iff, ← n.encode_chars, ← value, ← Utf8.encode_inj]
      rfl
    have same : (∃ m : Numeral, n.bytes = m.bytes ∧ m.Redundant) ↔ n.Redundant :=
      ⟨fun ⟨_, eq, h⟩ => (Numeral.redundant_iff_of_bytes_eq eq).2 h, fun h => ⟨n, rfl, h⟩⟩
    rw [written, same]
    exact not_congr (and_iff_right rfl).symm

/-- Strings are read from all of UTF-8. -/
theorem exists_decodeAs_string_iff {payload : List UInt8} :
    (∃ v, decodeAs .string payload = .ok v) ↔ Utf8.WellFormed payload := by
  simp only [decodeAs_eq_ok_iff, Utf8.wellFormed_iff]
  constructor
  · rintro ⟨_, kind, payload⟩
    cases payload with
    | @string text => exact ⟨text.toList, rfl⟩
    | _ => nomatch kind
  · rintro ⟨text, rfl⟩
    have own : (string (String.ofList text)).Payload (Utf8.ofString (String.ofList text)) := .string
    rw [Utf8.ofString, String.toList_ofList] at own
    exact ⟨_, rfl, own⟩

/-- Truth values are read from two words only, in small letters. -/
theorem exists_decodeAs_boolean_iff {payload : List UInt8} :
    (∃ v, decodeAs .boolean payload = .ok v) ↔
      payload = Utf8.ofString "true" ∨ payload = Utf8.ofString "false" := by
  simp only [decodeAs_eq_ok_iff]
  constructor
  · rintro ⟨_, kind, payload⟩
    cases payload with
    | @boolean truth =>
      cases truth with
      | true => exact .inl rfl
      | false => exact .inr rfl
    | _ => nomatch kind
  · rintro (rfl | rfl)
    · exact ⟨_, rfl, @Payload.boolean true⟩
    · exact ⟨_, rfl, @Payload.boolean false⟩

/-- Numbers are read from all numerals in range. -/
theorem exists_decodeAs_integer_iff {payload : List UInt8} :
    (∃ v, decodeAs .integer payload = .ok v) ↔
      ∃ n : Numeral, payload = n.bytes ∧ -2 ^ 63 ≤ n.number ∧ n.number ≤ 2 ^ 63 - 1 := by
  simp only [decodeAs_eq_ok_iff]
  constructor
  · rintro ⟨_, kind, payload⟩
    cases payload with
    | @integer number n value =>
      have low := number.le_toInt
      have high := number.toInt_lt
      exact ⟨n, rfl, by omega, by omega⟩
    | _ => nomatch kind
  · rintro ⟨n, rfl, low, high⟩
    exact ⟨_, rfl, .integer (Int64.toInt_ofInt_of_le low (by omega))⟩

/-- The number that is read is the one that the numeral denotes. -/
theorem decodeAs_numeral_eq_ok_iff {n : Numeral} {v : Value} :
    decodeAs .integer n.bytes = .ok v ↔ ∃ i : Int64, v = integer i ∧ i.toInt = n.number := by
  rw [decodeAs_eq_ok_iff]
  constructor
  · rintro ⟨kind, payload⟩
    generalize bytes : n.bytes = b at payload
    cases payload with
    | @integer number m value =>
      rw [← n.encode_chars, ← m.encode_chars, Utf8.encode_inj] at bytes
      exact ⟨number, rfl, value.trans (Numeral.number_eq_of_chars_eq bytes).symm⟩
    | _ => nomatch kind
  · rintro ⟨i, rfl, value⟩
    exact ⟨rfl, .integer value⟩

/-- **What decoding accepts in all.** -/
theorem decode_accepts_exactly (payload : List UInt8) :
    (∀ kind name, Kind.Spelled kind name → decode name payload = decodeAs kind payload) ∧
    decodeAs .bytes payload = .ok (bytes payload) ∧
    ((∃ v, decodeAs .string payload = .ok v) ↔ Utf8.WellFormed payload) ∧
    ((∃ v, decodeAs .boolean payload = .ok v) ↔
      payload = Utf8.ofString "true" ∨ payload = Utf8.ofString "false") ∧
    ((∃ v, decodeAs .integer payload = .ok v) ↔
      ∃ n : Numeral, payload = n.bytes ∧ -2 ^ 63 ≤ n.number ∧ n.number ≤ 2 ^ 63 - 1) ∧
    (∀ n : Numeral, payload = n.bytes → ∀ v, decodeAs .integer payload = .ok v →
      ∃ i : Int64, v = integer i ∧ i.toInt = n.number) ∧
    (∀ kind v, decodeAs kind payload = .ok v → v.kind = kind ∧ (v.encode = payload ↔
      ¬ (kind = .integer ∧ ∃ n : Numeral, payload = n.bytes ∧ n.Redundant))) ∧
    ∀ kind, (∀ v, decodeAs kind payload ≠ .ok v) →
      ∃ coded, decodeAs kind payload = .error (.malformed kind coded) := by
  refine ⟨fun kind name spelled => decode_eq_decodeAs spelled payload, rfl,
    exists_decodeAs_string_iff, exists_decodeAs_boolean_iff, exists_decodeAs_integer_iff,
    fun n eq v ok => decodeAs_numeral_eq_ok_iff.1 (eq ▸ ok), fun kind v ok => ?_,
    fun kind none => ?_⟩
  · obtain ⟨rfl, payload⟩ := decodeAs_eq_ok_iff.1 ok
    exact ⟨rfl, payload.encode_eq_iff⟩
  · have coded : kind ≠ .bytes := by
      rintro rfl
      exact none _ rfl
    refine ⟨coded, decodeAs_eq_error_iff.2 ⟨⟨coded, rfl⟩, fun v same payload => none v ?_⟩⟩
    exact decodeAs_eq_ok_iff.2 ⟨same, payload⟩

/-- A negative number with idle zeros, which is no truth value. -/
theorem decode_accepts_exactly_of_idle_zeros :
    let n : Numeral := ⟨.minus, [0, 0, 7], by decide⟩
    n.bytes = [0x2D, 0x30, 0x30, 0x37] ∧ Kind.integer.Spelled "Int" ∧
      decode "Int" n.bytes = .ok (integer (-7)) ∧ (integer (-7)).encode ≠ n.bytes ∧
      decodeAs .boolean n.bytes = .error (.malformed .boolean nofun) := by
  intro n
  have spelled : Kind.integer.Spelled "Int" := .inr (by unfold Respells; decide)
  obtain ⟨names, -, -, booleans, integers, value, accepted, refused⟩ :=
    decode_accepts_exactly n.bytes
  obtain ⟨v, ok⟩ := integers.2 ⟨n, rfl, by decide, by decide⟩
  obtain ⟨i, rfl, eq⟩ := value n rfl v ok
  obtain rfl : i = -7 := Int64.toInt_inj.1 eq
  refine ⟨rfl, spelled, (names _ _ spelled).trans ok, fun same => ?_, ?_⟩
  · exact (accepted _ _ ok).2.1 same ⟨rfl, n, rfl, .zeros⟩
  · refine (refused .boolean fun v ok => ?_).2
    rcases booleans.1 ⟨v, ok⟩ with eq | eq <;> exact absurd eq (by decide)

end Value

end PropertyGraph
