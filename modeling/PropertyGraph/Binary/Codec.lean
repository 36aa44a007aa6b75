import PropertyGraph.Text.Utf8

/-!
# Binary records

The binary form of numbers, texts, lists and variants. Words are little-endian and of fixed
width; a text or list starts with its length as a word of eight bytes, a variant with its index
as a word of four. Nothing in the bytes says what they are, so a reader must know.

Each reader undoes its writer and leaves what stands behind, and bytes that end too early are
`Error.truncated`.
-/

namespace PropertyGraph.Binary

/-- Why bytes cannot be read, or written. -/
inductive Error
  /-- The bytes end too early. -/
  | truncated
  /-- The bytes do not fit where they are to be written. -/
  | bufferFull
  /-- A text is no UTF-8. -/
  | invalidText (fault : Utf8.Fault)
  /-- A truth value is neither zero nor one. -/
  | invalidTruth (found : UInt8)
  /-- No variant has this index. -/
  | unknownVariant (index variants : Nat)
  deriving DecidableEq, Repr

/-- The error in words. -/
def Error.message : Error → String
  | truncated => "io error: failed to fill whole buffer"
  | bufferFull => "io error: failed to write whole buffer"
  | invalidText fault => s!"string is not valid utf8: {fault.message}"
  | invalidTruth found =>
    s!"invalid u8 while decoding bool, expected 0 or 1, found {found.toNat}"
  | unknownVariant index variants =>
    s!"invalid value: integer \x60{index}\x60, expected variant index 0 <= i < {variants}"

/-- What a reader makes of the bytes that are left: a result and the bytes left behind it. -/
abbrev Reader := StateT (List UInt8) (Except Error)

variable {α : Type}

/-! ## Words -/

/-- The lowest bytes of a number, the lowest first. -/
def word : Nat → Nat → List UInt8
  | 0, _ => []
  | width + 1, n => UInt8.ofNat n :: word width (n / 256)

/-- The number with the given bytes, the lowest first. -/
def ofWord : List UInt8 → Nat
  | [] => 0
  | b :: rest => b.toNat + 256 * ofWord rest

@[simp] theorem length_word (width n : Nat) : (word width n).length = width := by
  induction width generalizing n with
  | zero => rfl
  | succ width ih => simp [word, ih]

theorem ofWord_word {width n : Nat} (h : n < Nat.pow 256 width) : ofWord (word width n) = n := by
  induction width generalizing n with
  | zero => exact (Nat.lt_one_iff.1 h).symm
  | succ width ih =>
    have small : n / 256 < Nat.pow 256 width := Nat.div_lt_of_lt_mul (Nat.mul_comm 256 _ ▸ h)
    rw [word, ofWord, ih small, UInt8.toNat_ofNat']
    omega

theorem word_ofWord (bytes : List UInt8) : word bytes.length (ofWord bytes) = bytes := by
  induction bytes with
  | nil => rfl
  | cons b rest ih =>
    have := b.toNat_lt
    rw [List.length_cons, word, ofWord, show (b.toNat + 256 * ofWord rest) / 256 = ofWord rest by
      omega, ih]
    congr 1
    refine UInt8.toNat_inj.1 ?_
    rw [UInt8.toNat_ofNat']
    omega

/-! ## Readers and writers -/

/-- Reads a number of bytes. -/
def readBytes (count : Nat) : Reader (List UInt8) := fun s =>
  if count ≤ s.length then .ok (s.take count, s.drop count) else .error .truncated

/-- Reads a word. -/
def readWord (width : Nat) : Reader Nat := ofWord <$> readBytes width

/-- A length as bytes. -/
def writeLength (n : Nat) : List UInt8 := word 8 n

/-- Reads a length. -/
def readLength : Reader Nat := readWord 8

/-- A byte as bytes. -/
def writeByte (b : UInt8) : List UInt8 := [b]

/-- Reads a byte. -/
def readByte : Reader UInt8 := fun s =>
  match s with
  | [] => .error .truncated
  | b :: rest => .ok (b, rest)

/-- An integer as bytes, in two's complement. -/
def writeInt64 (n : Int64) : List UInt8 := word 8 n.toUInt64.toNat

/-- Reads an integer. -/
def readInt64 : Reader Int64 := (fun n => (UInt64.ofNat n).toInt64) <$> readWord 8

/-- A truth value as bytes. -/
def writeTruth (truth : Bool) : List UInt8 := [if truth then 1 else 0]

/-- Reads a truth value. -/
def readTruth : Reader Bool := do
  let b ← readByte
  if b = 0 then return false
  else if b = 1 then return true
  else throw (.invalidTruth b)

/-- A text as bytes. -/
def writeText (s : String) : List UInt8 :=
  let bytes := Utf8.ofString s
  writeLength bytes.length ++ bytes

/-- Reads a text. -/
def readText : Reader String := do
  let bytes ← readBytes (← readLength)
  match Utf8.decode bytes with
  | .ok text => return String.ofList text
  | .error fault => throw (.invalidText fault)

/-- A list as bytes. -/
def writeList (item : α → List UInt8) (items : List α) : List UInt8 :=
  writeLength items.length ++ items.flatMap item

/-- Reads a number of items. -/
def readItems (item : Reader α) : Nat → Reader (List α)
  | 0 => return []
  | count + 1 => do
    let a ← item
    let rest ← readItems item count
    return a :: rest

/-- Reads a list. -/
def readList (item : Reader α) : Reader (List α) := do readItems item (← readLength)

/-- The index of a variant as bytes. -/
def writeVariant (index : Nat) : List UInt8 := word 4 index

/-- Reads the index of a variant and goes on with the reader at that index. -/
def readVariant (variants : List (Reader α)) : Reader α := do
  let index ← readWord 4
  match variants[index]? with
  | some payload => payload
  | none => throw (.unknownVariant index variants.length)

end PropertyGraph.Binary
