/-!
# Decimal integers

Reading digits as the number they denote, with no limit on their count, and the two ways a
number can miss the range of 64-bit integers.
-/

namespace PropertyGraph.Decimal

/-- Whether a character is one of the ten ASCII digits. -/
def isDigit (c : Char) : Bool := '0' ≤ c && c ≤ '9'

/-- The value of a digit. -/
def digitValue (c : Char) : Nat := c.toNat - '0'.toNat

/-- The number that a run of digits denotes. -/
def ofDigits (digits : List Char) : Nat := digits.foldl (fun n c => 10 * n + digitValue c) 0

/-- Reads one or more digits and nothing else. -/
def natural? (s : List Char) : Option Nat :=
  if !s.isEmpty && s.all isDigit then some (ofDigits s) else none

/-- Reads a natural number that may have a plus sign. -/
def unsigned? : List Char → Option Nat
  | '+' :: digits => natural? digits
  | digits => natural? digits

/-- Reads an integer that may have a sign. -/
def signed? : List Char → Option Int
  | '+' :: digits => (natural? digits).map Int.ofNat
  | '-' :: digits => (natural? digits).map fun n => -Int.ofNat n
  | digits => (natural? digits).map Int.ofNat

/-- How a number misses a range. -/
inductive Excess
  /-- The number lies above the greatest one. -/
  | tooLarge
  /-- The number lies below the least one. -/
  | tooSmall
  deriving DecidableEq, Repr

/-- The excess in words. -/
def Excess.message : Excess → String
  | .tooLarge => "number too large to fit in target type"
  | .tooSmall => "number too small to fit in target type"

/-- The least 64-bit integer, `-2 ^ 63`. -/
def least : Int := -9223372036854775808

/-- The greatest 64-bit integer, `2 ^ 63 - 1`. -/
def greatest : Int := 9223372036854775807

/-- A number as a 64-bit integer, if it is in range. -/
def toInt64 (n : Int) : Except Excess Int64 :=
  if greatest < n then .error .tooLarge
  else if n < least then .error .tooSmall
  else .ok (Int64.ofInt n)

theorem toInt_of_toInt64 {n : Int} {i : Int64} (h : toInt64 n = .ok i) : i.toInt = n := by
  unfold toInt64 greatest least at h
  split at h
  · nomatch h
  · split at h
    · nomatch h
    · obtain rfl := Except.ok.inj h
      exact Int64.toInt_ofInt_of_le (by omega) (by omega)

/-- The number of a word is in range, and stands for that word. -/
theorem toInt64_toInt (i : Int64) : toInt64 i.toInt = .ok i := by
  have lo := i.le_toInt
  have hi := i.toInt_lt
  unfold toInt64 greatest least
  rw [if_neg (by omega), if_neg (by omega), Int64.ofInt_toInt]

/-- Reads a 64-bit integer that may have a sign. -/
def int64? (s : List Char) : Option Int64 :=
  match signed? s with
  | none => none
  | some n => (toInt64 n).toOption

/-- The shortest digits of an integer, with a minus sign below zero. -/
def text (i : Int64) : String := toString i.toInt

/-- Zeros in front of the digits make no difference. -/
theorem ofDigits_replicate_zero_append (n : Nat) (digits : List Char) :
    ofDigits (List.replicate n '0' ++ digits) = ofDigits digits := by
  induction n with
  | zero => rfl
  | succ n ih => exact ih

/-- The digits of a number make up the number. -/
theorem ofDigits_toDigits (n : Nat) : ofDigits (Nat.toDigits 10 n) = n := by
  rw [ofDigits]
  exact Nat.ofDigitChars_eq_foldl.symm.trans Nat.ofDigitChars_ten_toDigits

theorem isDigit_of_mem_toDigits {n : Nat} {c : Char} (h : c ∈ Nat.toDigits 10 n) : isDigit c :=
  Nat.isDigit_of_mem_toDigits (by decide) (by decide) h

theorem toList_toString (n : Int) : (toString n).toList =
    if n < 0 then '-' :: Nat.toDigits 10 n.natAbs else Nat.toDigits 10 n.natAbs := by
  rw [Int.toString_eq_repr]
  cases n with
  | ofNat n => exact Nat.toList_repr
  | negSucc n =>
    rw [if_pos (Int.negSucc_lt_zero n), Int.repr, String.toList_append, Nat.toList_repr]
    rfl

/-- A number is written as its digits, behind a minus if it is negative. -/
theorem toList_text (i : Int64) : (text i).toList =
    if i.toInt < 0 then '-' :: Nat.toDigits 10 i.toInt.natAbs
    else Nat.toDigits 10 i.toInt.natAbs :=
  toList_toString i.toInt

end PropertyGraph.Decimal
