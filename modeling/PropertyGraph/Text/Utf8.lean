/-!
# Strict UTF-8

Texts travel as bytes in property payloads, dumps and files. `Utf8.encode` writes a text and
`Utf8.decode` reads one back, refusing everything that is not the one encoding of a text:
overlong forms, surrogates and code points above U+10FFFF. A refusal is a `Utf8.Fault`, which
says where the first bad sequence starts and how many of its bytes rule it out.
-/

namespace PropertyGraph.Utf8

/-- The bytes of a text. -/
def encode (text : List Char) : List UInt8 := text.flatMap String.utf8EncodeChar

/-- The bytes of a string. -/
def ofString (s : String) : List UInt8 := encode s.toList

theorem encode_append (s t : List Char) : encode (s ++ t) = encode s ++ encode t :=
  List.flatMap_append

/-- Where bytes stop being UTF-8. -/
structure Fault where
  /-- The number of bytes before the sequence at fault. -/
  index : Nat
  /-- How many bytes of it rule it out; nothing when the bytes end inside a character. -/
  length : Option Nat
  deriving DecidableEq, Repr

/-- The fault in words. -/
def Fault.message : Fault → String
  | ⟨index, some length⟩ => s!"invalid utf-8 sequence of {length} bytes from index {index}"
  | ⟨index, none⟩ => s!"incomplete utf-8 byte sequence from index {index}"

/-- Whether a byte continues a character. -/
def isTail (b : UInt8) : Bool := 0x80 ≤ b && b ≤ 0xBF

/-- Whether a byte may follow the first byte of a three-byte character: what follows `0xE0` must
not make an overlong form, and what follows `0xED` must not make a surrogate. -/
def secondOfThree (a b : UInt8) : Bool :=
  (if a = 0xE0 then 0xA0 else 0x80) ≤ b && b ≤ (if a = 0xED then 0x9F else 0xBF)

/-- Whether a byte may follow the first byte of a four-byte character: what follows `0xF0` must
not make an overlong form, and what follows `0xF4` must not pass U+10FFFF. -/
def secondOfFour (a b : UInt8) : Bool :=
  (if a = 0xF0 then 0x90 else 0x80) ≤ b && b ≤ (if a = 0xF4 then 0x8F else 0xBF)

/-- The six bits that a continuation byte carries. -/
def payload (b : UInt8) : Nat := b.toNat - 0x80

/-- Reads bytes that start at a given index as characters. -/
def decodeFrom (index : Nat) : List UInt8 → Except Fault (List Char)
  | [] => .ok []
  | a :: rest =>
    if a < 0x80 then
      (Char.ofNat a.toNat :: ·) <$> decodeFrom (index + 1) rest
    else if 0xC2 ≤ a && a ≤ 0xDF then
      match rest with
      | [] => .error ⟨index, none⟩
      | b :: rest =>
        if isTail b then
          (Char.ofNat ((a.toNat - 0xC0) * 0x40 + payload b) :: ·) <$> decodeFrom (index + 2) rest
        else .error ⟨index, some 1⟩
    else if 0xE0 ≤ a && a ≤ 0xEF then
      match rest with
      | [] => .error ⟨index, none⟩
      | b :: rest =>
        if secondOfThree a b then
          match rest with
          | [] => .error ⟨index, none⟩
          | c :: rest =>
            if isTail c then
              (Char.ofNat (((a.toNat - 0xE0) * 0x40 + payload b) * 0x40 + payload c) :: ·) <$>
                decodeFrom (index + 3) rest
            else .error ⟨index, some 2⟩
        else .error ⟨index, some 1⟩
    else if 0xF0 ≤ a && a ≤ 0xF4 then
      match rest with
      | [] => .error ⟨index, none⟩
      | b :: rest =>
        if secondOfFour a b then
          match rest with
          | [] => .error ⟨index, none⟩
          | c :: rest =>
            if isTail c then
              match rest with
              | [] => .error ⟨index, none⟩
              | d :: rest =>
                if isTail d then
                  (Char.ofNat ((((a.toNat - 0xF0) * 0x40 + payload b) * 0x40 + payload c) * 0x40
                    + payload d) :: ·) <$> decodeFrom (index + 4) rest
                else .error ⟨index, some 3⟩
            else .error ⟨index, some 2⟩
        else .error ⟨index, some 1⟩
    else .error ⟨index, some 1⟩

/-- Reads bytes as characters. -/
def decode (bytes : List UInt8) : Except Fault (List Char) := decodeFrom 0 bytes

/-- Reads bytes as a string. -/
def toString? (bytes : List UInt8) : Option String :=
  match decode bytes with
  | .ok text => some (String.ofList text)
  | .error _ => none

end PropertyGraph.Utf8
