import Mathlib.Data.List.Induction
import Mathlib.Data.Nat.Digits.Defs
import Mathlib.Data.Set.List
import PropertyGraph.Decimal.Integer
import PropertyGraph.Proofs.Text.Encoding

/-!
# Numerals

A `Numeral` is what may be written for an integer: one or more digits behind a sign or not, with as
many zeros in front as one likes. It denotes a number without any bound (`Numeral.number`). Reading
accepts numerals and nothing else, and finds that number or, where 64 bits are too few for it,
nothing (`signed?_eq_some_iff`, `int64?_eq_some_iff`).

Of the numerals of one number a single one is written; `Numeral.Redundant` tells the others from it
(`Numeral.chars_eq_iff`).
-/

namespace PropertyGraph.Decimal

/-- What may stand in front of digits. -/
inductive Sign
  | none
  | plus
  | minus
  deriving DecidableEq

/-- The characters of a sign. -/
def Sign.chars : Sign → List Char
  | none => []
  | plus => ['+']
  | minus => ['-']

/-- Digits as characters. -/
def figures (digits : List (Fin 10)) : List Char := digits.map fun d => Nat.digitChar d.val

/-- The number that digits denote, the most significant one first. -/
def magnitude (digits : List (Fin 10)) : Nat := Nat.ofDigits 10 (digits.reverse.map Fin.val)

/-- **A numeral**: an integer as written. -/
structure Numeral where
  /-- What stands in front of the digits. -/
  sign : Sign
  /-- The digits, the most significant one first. -/
  digits : List (Fin 10)
  /-- There is a digit. -/
  some_digit : digits ≠ []

namespace Numeral

/-- The characters of a numeral. -/
def chars (n : Numeral) : List Char := n.sign.chars ++ figures n.digits

/-- The characters in ASCII. -/
def bytes (n : Numeral) : List UInt8 := n.chars.map fun c => UInt8.ofNat c.toNat

/-- **The integer that a numeral denotes.** -/
def number (n : Numeral) : Int :=
  if n.sign = .minus then -(magnitude n.digits : Int) else magnitude n.digits

/-- A numeral that is longer than its number calls for. -/
inductive Redundant : Numeral → Prop
  /-- There is a plus sign. -/
  | plus {digits some_digit} : Redundant ⟨.plus, digits, some_digit⟩
  /-- There is a zero in front of other digits. -/
  | zeros {sign d digits some_digit} : Redundant ⟨sign, 0 :: d :: digits, some_digit⟩
  /-- Zero has a minus sign. -/
  | minusZero {some_digit} : Redundant ⟨.minus, [0], some_digit⟩

end Numeral

/-! ## Digits -/

/-- The digits are the ten characters that are written for the numbers below ten. -/
theorem isDigit_iff {c : Char} : isDigit c ↔ ∃ d : Fin 10, Nat.digitChar d = c := by
  constructor
  · intro h
    simp only [isDigit, Bool.and_eq_true, decide_eq_true_eq, Char.le_def,
      UInt32.le_iff_toNat_le] at h
    have low : 48 ≤ c.toNat := h.1
    have high : c.toNat ≤ 57 := h.2
    have small : c.toNat - 48 < 10 := by omega
    refine ⟨⟨c.toNat - 48, small⟩, Char.toNat_inj.1 ?_⟩
    rw [Nat.toNat_digitChar_of_lt_ten small]
    exact Nat.add_sub_cancel' low
  · rintro ⟨d, rfl⟩
    exact Nat.isDigit_digitChar.trans (decide_eq_true d.isLt)

/-- Characters that are all digits are the figures of some digits. -/
theorem forall_isDigit_iff {s : List Char} :
    (∀ c ∈ s, isDigit c) ↔ ∃ digits, figures digits = s := by
  have range := Set.ext_iff.1 (Set.range_list_map fun d : Fin 10 => Nat.digitChar d) s
  simp only [isDigit_iff]
  exact range.symm

/-- Figures are digits. -/
theorem isDigit_of_mem_figures {digits : List (Fin 10)} : ∀ c ∈ figures digits, isDigit c :=
  forall_isDigit_iff.2 ⟨digits, rfl⟩

/-- There are as many of them as digits. -/
theorem figures_ne_nil {digits : List (Fin 10)} : figures digits ≠ [] ↔ digits ≠ [] :=
  not_congr List.map_eq_nil_iff

/-- Only zero is written by the single figure for it. -/
theorem eq_zero_of_figures {digits : List (Fin 10)} (h : figures digits = ['0']) :
    digits = [0] := by
  obtain ⟨d, rfl, zero⟩ := List.map_eq_singleton_iff.1 h
  obtain rfl : d = 0 := Fin.ext (Nat.digitChar_eq_zero.1 zero)
  rfl

/-- A further digit makes ten times as much and itself. -/
theorem magnitude_concat (digits : List (Fin 10)) (d : Fin 10) :
    magnitude (digits ++ [d]) = 10 * magnitude digits + d := by
  rw [magnitude, List.reverse_append, List.reverse_singleton, List.singleton_append, List.map_cons,
    Nat.ofDigits_cons, Nat.add_comm]
  rfl

/-- A zero in front makes no difference. -/
theorem magnitude_zero_cons (digits : List (Fin 10)) :
    magnitude (0 :: digits) = magnitude digits := by
  rw [magnitude, List.reverse_cons, List.map_append]
  exact Nat.ofDigits_append_zero _

/-- A number of so many digits is below that power of ten. -/
theorem magnitude_lt (digits : List (Fin 10)) : magnitude digits < 10 ^ digits.length := by
  have below : ∀ x ∈ digits.reverse.map Fin.val, x < 10 :=
    List.forall_mem_map.2 fun d _ => d.isLt
  have bound := Nat.ofDigits_lt_base_pow_length (by decide) below
  rwa [List.length_map, List.length_reverse] at bound

/-- Figures are read by their places. -/
theorem ofDigits_figures (digits : List (Fin 10)) :
    ofDigits (figures digits) = magnitude digits := by
  induction digits using List.reverseRecOn with
  | nil => rfl
  | append_singleton digits d ih =>
    have value : digitValue (Nat.digitChar d) = d := Nat.toNat_digitChar_sub_48_of_lt_ten d.isLt
    rw [magnitude_concat, ← ih, figures, List.map_append, ofDigits, List.foldl_append]
    show 10 * _ + digitValue (Nat.digitChar d) = _
    rw [value]
    rfl

/-! ## Reading -/

/-- A natural number is read exactly from digits, one at least. -/
theorem natural?_eq_some_iff {s : List Char} {n : Nat} :
    natural? s = some n ↔ ∃ digits, digits ≠ [] ∧ s = figures digits ∧ n = magnitude digits := by
  have allowed : (!s.isEmpty && s.all isDigit) = true ↔
      ∃ digits, digits ≠ [] ∧ s = figures digits := by
    rw [Bool.and_eq_true, Bool.not_eq_true', List.isEmpty_eq_false_iff, List.all_eq_true,
      forall_isDigit_iff]
    constructor
    · rintro ⟨ne, digits, rfl⟩
      exact ⟨digits, figures_ne_nil.1 ne, rfl⟩
    · rintro ⟨digits, ne, rfl⟩
      exact ⟨figures_ne_nil.2 ne, digits, rfl⟩
  unfold natural?
  constructor
  · intro h
    split at h
    next valid =>
      obtain ⟨digits, ne, rfl⟩ := allowed.1 valid
      exact ⟨digits, ne, rfl, by rw [← Option.some.inj h, ofDigits_figures]⟩
    next => nomatch h
  · rintro ⟨digits, ne, rfl, rfl⟩
    rw [if_pos (allowed.2 ⟨digits, ne, rfl⟩), ofDigits_figures]

/-- It is the one that they denote. -/
theorem natural?_figures {digits : List (Fin 10)} (some_digit : digits ≠ []) :
    natural? (figures digits) = some (magnitude digits) :=
  natural?_eq_some_iff.2 ⟨digits, some_digit, rfl, rfl⟩

/-- **What is read as an integer is a numeral of it.** -/
theorem signed?_eq_some_iff {s : List Char} {z : Int} :
    signed? s = some z ↔ ∃ n : Numeral, s = n.chars ∧ z = n.number := by
  constructor
  · intro h
    unfold signed? at h
    split at h
    all_goals
      simp only [Option.map_eq_some_iff, natural?_eq_some_iff] at h
      obtain ⟨_, ⟨digits, some_digit, rfl, rfl⟩, rfl⟩ := h
    · exact ⟨⟨.plus, digits, some_digit⟩, rfl, rfl⟩
    · exact ⟨⟨.minus, digits, some_digit⟩, rfl, rfl⟩
    · exact ⟨⟨.none, digits, some_digit⟩, rfl, rfl⟩
  · rintro ⟨⟨sign, digits, some_digit⟩, rfl, rfl⟩
    have read := natural?_figures some_digit
    cases sign with
    | plus =>
      show (natural? (figures digits)).map Int.ofNat = _
      rw [read]
      rfl
    | minus =>
      show (natural? (figures digits)).map (fun n => -Int.ofNat n) = _
      rw [read]
      rfl
    | none =>
      -- the first digit is no sign
      show signed? (figures digits) = _
      unfold signed?
      split
      next eq => exact absurd (isDigit_of_mem_figures '+' (eq ▸ List.mem_cons_self)) (by decide)
      next eq => exact absurd (isDigit_of_mem_figures '-' (eq ▸ List.mem_cons_self)) (by decide)
      next =>
        rw [read]
        rfl

/-- An integer fits into 64 bits exactly if some word has it as its value. -/
theorem toInt64_eq_ok_iff {z : Int} {i : Int64} : toInt64 z = .ok i ↔ i.toInt = z :=
  ⟨toInt_of_toInt64, fun h => h ▸ toInt64_toInt i⟩

/-- **What is read in 64 bits is a numeral of the very number that comes out.** -/
theorem int64?_eq_some_iff {s : List Char} {i : Int64} :
    int64? s = some i ↔ ∃ n : Numeral, s = n.chars ∧ i.toInt = n.number := by
  have steps : int64? s = some i ↔ ∃ z, signed? s = some z ∧ toInt64 z = .ok i := by
    unfold int64?
    constructor
    · intro h
      split at h
      next => nomatch h
      next z read => exact ⟨z, read, eq_ok_of_toOption h⟩
    · rintro ⟨z, read, fits⟩
      rw [read]
      show (toInt64 z).toOption = some i
      rw [fits]
      rfl
  simp only [steps, signed?_eq_some_iff, toInt64_eq_ok_iff]
  constructor
  · rintro ⟨z, ⟨n, rfl, rfl⟩, eq⟩
    exact ⟨n, rfl, eq⟩
  · rintro ⟨n, rfl, eq⟩
    exact ⟨n.number, ⟨n, rfl, rfl⟩, eq⟩

/-! ## Writing -/

/-- Digits are written as they are if no zero can be left out in front of them. -/
theorem toDigits_magnitude {digits : List (Fin 10)} (some_digit : digits ≠ []) :
    Nat.toDigits 10 (magnitude digits) = figures digits ↔ ¬ ∃ d rest, digits = 0 :: d :: rest := by
  constructor
  · rintro written ⟨d, rest, rfl⟩
    -- the digits behind the zero are enough for the same number
    have short := (Nat.length_toDigits_le_iff (by decide) (Nat.succ_pos _)).2
      (magnitude_lt (d :: rest))
    rw [← magnitude_zero_cons, written, figures, List.length_map] at short
    exact absurd short (Nat.not_succ_le_self _)
  · intro full
    induction digits using List.reverseRecOn with
    | nil => exact absurd rfl some_digit
    | append_singleton digits d ih =>
      rw [magnitude_concat]
      by_cases ne : digits = []
      · subst ne
        rw [show magnitude [] = 0 from rfl, Nat.mul_zero, Nat.zero_add,
          Nat.toDigits_of_lt_base d.isLt]
        rfl
      · have front := ih ne fun ⟨e, rest, eq⟩ => full ⟨e, rest ++ [d], by rw [eq]; rfl⟩
        have pos : 0 < magnitude digits := by
          refine Nat.pos_of_ne_zero fun zero => full ⟨d, [], ?_⟩
          rw [zero, Nat.toDigits_zero] at front
          rw [eq_zero_of_figures front.symm]
          rfl
        rw [← Nat.toDigits_append_toDigits (by decide) pos d.isLt, front,
          Nat.toDigits_of_lt_base d.isLt, figures, figures, List.map_append]
        rfl

namespace Numeral

variable {digits : List (Fin 10)} {some_digit : digits ≠ []}

/-- A numeral without sign is redundant exactly if it has an idle zero in front. -/
theorem redundant_none_iff :
    Redundant ⟨.none, digits, some_digit⟩ ↔ ∃ d rest, digits = 0 :: d :: rest := by
  constructor
  · rintro ⟨⟩
    exact ⟨_, _, rfl⟩
  · rintro ⟨d, rest, rfl⟩
    exact .zeros

/-- One with a minus sign is, too, if it denotes zero. -/
theorem redundant_minus_iff : Redundant ⟨.minus, digits, some_digit⟩ ↔
    magnitude digits = 0 ∨ ∃ d rest, digits = 0 :: d :: rest := by
  constructor
  · rintro (_ | _ | _)
    · exact .inr ⟨_, _, rfl⟩
    · exact .inl rfl
  · intro h
    by_cases idle : ∃ d rest, digits = 0 :: d :: rest
    · obtain ⟨d, rest, rfl⟩ := idle
      exact .zeros
    · have zero := h.resolve_right idle
      have figure := (toDigits_magnitude some_digit).2 idle
      rw [zero, Nat.toDigits_zero] at figure
      obtain rfl := eq_zero_of_figures figure.symm
      exact .minusZero

/-- **One numeral of each number is written**: the one without a plus sign, idle zeros or a minus
sign in front of zero. -/
theorem chars_eq_iff (n : Numeral) : (toString n.number).toList = n.chars ↔ ¬ n.Redundant := by
  obtain ⟨sign, digits, some_digit⟩ := n
  have written := toDigits_magnitude some_digit
  have natural : (toString (magnitude digits : Int)).toList =
      Nat.toDigits 10 (magnitude digits) := by
    rw [toList_toString, if_neg (by omega), Int.natAbs_natCast]
  cases sign with
  | none =>
    show (toString (magnitude digits : Int)).toList = figures digits ↔ _
    rw [natural, written, redundant_none_iff]
  | plus =>
    refine iff_of_false (fun eq => ?_) (not_not_intro .plus)
    replace eq : (toString (magnitude digits : Int)).toList = '+' :: figures digits := eq
    have sign : '+' ∈ Nat.toDigits 10 (magnitude digits) := by
      rw [← natural, eq]
      exact List.mem_cons_self
    exact absurd (isDigit_of_mem_toDigits sign) (by decide)
  | minus =>
    show (toString (-(magnitude digits : Int))).toList = '-' :: figures digits ↔ _
    rw [redundant_minus_iff, not_or, ← written]
    by_cases zero : magnitude digits = 0
    · -- zero is written without a sign
      refine iff_of_false (fun eq => ?_) fun h => h.1 zero
      rw [zero] at eq
      exact absurd (List.cons.inj eq).1 (by decide)
    · rw [toList_toString, if_pos (by omega), Int.natAbs_neg, Int.natAbs_natCast,
        List.cons_inj_right, and_iff_right zero]

/-- Every number is written as a numeral of it. -/
theorem exists_chars_eq (z : Int) :
    ∃ n : Numeral, (toString z).toList = n.chars ∧ n.number = z := by
  obtain ⟨digits, eq⟩ := forall_isDigit_iff.1 fun c => isDigit_of_mem_toDigits (n := z.natAbs)
  have some_digit : digits ≠ [] := figures_ne_nil.1 (eq ▸ Nat.toDigits_ne_nil)
  have value : magnitude digits = z.natAbs := by
    rw [← ofDigits_figures, eq, ofDigits_toDigits]
  rw [toList_toString, ← eq]
  split
  · refine ⟨⟨.minus, digits, some_digit⟩, rfl, ?_⟩
    rw [number, if_pos rfl, value]
    omega
  · refine ⟨⟨.none, digits, some_digit⟩, rfl, ?_⟩
    rw [number, if_neg nofun, value]
    omega

/-- Of two numerals with the same characters neither denotes anything else than the other. -/
theorem number_eq_of_chars_eq {n m : Numeral} (h : n.chars = m.chars) : n.number = m.number := by
  have read : signed? n.chars = some n.number := signed?_eq_some_iff.2 ⟨n, rfl, rfl⟩
  rw [h, signed?_eq_some_iff.2 ⟨m, rfl, rfl⟩] at read
  exact (Option.some.inj read).symm

/-- A numeral is in ASCII, a byte for each character. -/
theorem encode_chars (n : Numeral) : Utf8.encode n.chars = n.bytes := by
  have signs : ∀ sign : Sign, ∀ c ∈ sign.chars, c.toNat < 0x80 := by
    intro sign
    cases sign <;> simp [Sign.chars]
  refine Utf8.encode_ascii fun c hc => ?_
  obtain sign | digit := List.mem_append.1 hc
  · exact signs n.sign c sign
  · obtain ⟨d, rfl⟩ := isDigit_iff.1 (isDigit_of_mem_figures c digit)
    rw [Nat.toNat_digitChar_of_lt_ten d.isLt]
    omega

/-- Two numerals with the same bytes have the same characters, so neither can do with less. -/
theorem redundant_iff_of_bytes_eq {n m : Numeral} (h : n.bytes = m.bytes) :
    n.Redundant ↔ m.Redundant := by
  rw [← encode_chars, ← encode_chars, Utf8.encode_inj] at h
  rw [← not_iff_not, ← chars_eq_iff, ← chars_eq_iff, number_eq_of_chars_eq h, h]

end Numeral

/-- A number is read back from its text. -/
theorem int64?_text (i : Int64) : int64? (text i).toList = some i := by
  obtain ⟨n, written, value⟩ := Numeral.exists_chars_eq i.toInt
  exact int64?_eq_some_iff.2 ⟨n, written, value.symm⟩

end PropertyGraph.Decimal
