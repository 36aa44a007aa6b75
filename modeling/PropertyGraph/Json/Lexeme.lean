import PropertyGraph.Json.Error
import PropertyGraph.Text.Utf8

/-!
# Strings and numbers of JSON

The leaves of a JSON text, read from its bytes: blanks, the three words, strings with their
escapes, and numbers. Each reader takes the bytes that are left and gives back those it leaves.

A number that fits 64 bits is read exactly; any other is read as a floating-point number: its
leading digits that fit 64 bits are scaled by one power of ten, with each step rounded.
-/

namespace PropertyGraph.Json

/-- What a reader makes of the bytes that are left: a result and the bytes left behind it. -/
abbrev Reader := StateT (List UInt8) (Except Error)

/-- The byte of an ASCII character. -/
def byte (c : Char) : UInt8 := UInt8.ofNat c.toNat

/-! ## Blanks and words -/

/-- Whether a byte is a blank. -/
def isBlank (b : UInt8) : Bool :=
  b = byte ' ' || b = byte '\t' || b = byte '\n' || b = byte '\r'

/-- The bytes left behind blanks. -/
def skipBlanks (s : List UInt8) : List UInt8 := s.dropWhile isBlank

/-- Reads the given characters. -/
def readIdent : List Char → List UInt8 → Except Error (List UInt8)
  | [], s => .ok s
  | _ :: _, [] => .error (.unfinished .value)
  | c :: cs, b :: s => if b = byte c then readIdent cs s else .error (.malformed .expectedIdent)

/-! ## Strings -/

/-- The value of a hexadecimal digit. -/
def hexDigit? (b : UInt8) : Option Nat :=
  if byte '0' ≤ b && b ≤ byte '9' then some (b.toNat - '0'.toNat)
  else if byte 'a' ≤ b && b ≤ byte 'f' then some (b.toNat - 'a'.toNat + 10)
  else if byte 'A' ≤ b && b ≤ byte 'F' then some (b.toNat - 'A'.toNat + 10)
  else none

/-- Reads four hexadecimal digits. -/
def readHex : List UInt8 → Except Error (Nat × List UInt8)
  | a :: b :: c :: d :: rest =>
    match hexDigit? a, hexDigit? b, hexDigit? c, hexDigit? d with
    | some a, some b, some c, some d => .ok (((a * 16 + b) * 16 + c) * 16 + d, rest)
    | _, _, _, _ => .error (.malformed .invalidEscape)
  | _ => .error (.unfinished .string)

/-- Reads the second half of a surrogate pair, with its backslash. -/
def readTrailing : List UInt8 → Except Error (Nat × List UInt8)
  | [] => .error (.unfinished .string)
  | b :: rest =>
    if b ≠ byte '\\' then .error (.malformed .unfinishedEscape)
    else
      match rest with
      | [] => .error (.unfinished .string)
      | u :: rest =>
        if u ≠ byte 'u' then .error (.malformed .unfinishedEscape)
        else
          match readHex rest with
          | .error e => .error e
          | .ok (low, rest) =>
            if 0xDC00 ≤ low ∧ low ≤ 0xDFFF then .ok (low, rest)
            else .error (.malformed .loneSurrogate)

/-- Reads the digits of an escape by number; one that is the first half of a surrogate pair needs
the other half behind it. -/
def readUnicode (s : List UInt8) : Except Error (Char × List UInt8) :=
  match readHex s with
  | .error e => .error e
  | .ok (n, rest) =>
    if 0xDC00 ≤ n ∧ n ≤ 0xDFFF then .error (.malformed .loneSurrogate)
    else if 0xD800 ≤ n ∧ n ≤ 0xDBFF then
      match readTrailing rest with
      | .error e => .error e
      | .ok (low, rest) =>
        .ok (Char.ofNat (0x10000 + (n - 0xD800) * 0x400 + (low - 0xDC00)), rest)
    else .ok (Char.ofNat n, rest)

/-- The escapes of one letter, with what they stand for. -/
def shortEscapes : List (Char × Char) :=
  [('"', '"'), ('\\', '\\'), ('/', '/'), ('b', '\x08'), ('f', '\x0c'), ('n', '\n'), ('r', '\r'),
    ('t', '\t')]

/-- What an escape of one letter stands for. -/
def shortEscape? (b : UInt8) : Option Char :=
  (shortEscapes.find? (fun e => b = byte e.1)).map (·.2)

/-- Reads an escape behind its backslash. -/
def readEscape : List UInt8 → Except Error (Char × List UInt8)
  | [] => .error (.unfinished .string)
  | b :: rest =>
    match shortEscape? b with
    | some c => .ok (c, rest)
    | none => if b = byte 'u' then readUnicode rest else .error (.malformed .invalidEscape)

theorem length_readHex {s rest : List UInt8} {n : Nat} (h : readHex s = .ok (n, rest)) :
    rest.length < s.length := by
  unfold readHex at h
  split at h
  · split at h
    · obtain ⟨-, rfl⟩ := Prod.mk.inj (Except.ok.inj h)
      simp only [List.length_cons]
      omega
    · nomatch h
  · nomatch h

theorem length_readTrailing {s rest : List UInt8} {n : Nat}
    (h : readTrailing s = .ok (n, rest)) : rest.length < s.length := by
  unfold readTrailing at h
  split at h
  · nomatch h
  · split at h
    · nomatch h
    · split at h
      · nomatch h
      · split at h
        · nomatch h
        · split at h
          · nomatch h
          next eq =>
            split at h
            · obtain ⟨-, rfl⟩ := Prod.mk.inj (Except.ok.inj h)
              have := length_readHex eq
              simp only [List.length_cons]
              omega
            · nomatch h

theorem length_readUnicode {s rest : List UInt8} {c : Char} (h : readUnicode s = .ok (c, rest)) :
    rest.length < s.length := by
  unfold readUnicode at h
  split at h
  · nomatch h
  next eq =>
    have := length_readHex eq
    split at h
    · nomatch h
    · split at h
      · split at h
        · nomatch h
        next eq' =>
          obtain ⟨-, rfl⟩ := Prod.mk.inj (Except.ok.inj h)
          have := length_readTrailing eq'
          omega
      · obtain ⟨-, rfl⟩ := Prod.mk.inj (Except.ok.inj h)
        exact this

theorem length_readEscape {s rest : List UInt8} {c : Char} (h : readEscape s = .ok (c, rest)) :
    rest.length < s.length := by
  unfold readEscape at h
  split at h
  · nomatch h
  · split at h
    · obtain ⟨-, rfl⟩ := Prod.mk.inj (Except.ok.inj h)
      simp
    · split at h
      · have := length_readUnicode h
        simp only [List.length_cons]
        omega
      · nomatch h

/-- Reads the bytes of a string behind its opening quote, with escapes resolved, and its closing
quote. -/
def readContent (s : List UInt8) : Except Error (List UInt8 × List UInt8) :=
  match s with
  | [] => .error (.unfinished .string)
  | b :: behind =>
    if b = byte '"' then .ok ([], behind)
    else if b = byte '\\' then
      match _read : readEscape behind with
      | .error e => .error e
      | .ok (c, rest) =>
        match readContent rest with
        | .error e => .error e
        | .ok (content, rest) => .ok (String.utf8EncodeChar c ++ content, rest)
    else if b < 0x20 then .error (.malformed .controlCharacter)
    else
      match readContent behind with
      | .error e => .error e
      | .ok (content, rest) => .ok (b :: content, rest)
termination_by s.length
decreasing_by
  · have := length_readEscape _read
    simp only [List.length_cons]
    omega
  · simp

/-- Reads a string behind its opening quote. -/
def readString (s : List UInt8) : Except Error (String × List UInt8) :=
  match readContent s with
  | .error e => .error e
  | .ok (content, rest) =>
    match Utf8.decode content with
    | .ok text => .ok (String.ofList text, rest)
    | .error _ => .error (.malformed .invalidCodePoint)

/-! ## Numbers -/

/-- A number as read. -/
inductive Number
  /-- A natural number below `2 ^ 64`. -/
  | natural (n : Nat)
  /-- Minus a positive number up to `2 ^ 63`. -/
  | negative (n : Nat)
  /-- Any other number. -/
  | float (x : Decimal.Float64)
  deriving DecidableEq, Repr

/-- The number as something found. -/
def Number.found : Number → Found
  | natural n => .integer n
  | negative n => .integer (-n)
  | float x => .float x

/-- Whether a byte is a digit. -/
def isDigit (b : UInt8) : Bool := byte '0' ≤ b && b ≤ byte '9'

/-- The value of a digit. -/
def digit (b : UInt8) : Nat := b.toNat - '0'.toNat

/-- The greatest number of 64 bits. -/
def greatest64 : Nat := (1 <<< 64) - 1

/-- Reads digits in front of the point: a number of 64 bits, and how many digits behind it were
dropped for want of room. -/
def wholePart (digits : List UInt8) : Nat × Nat :=
  digits.foldl
    (fun (m, dropped) d =>
      if dropped ≠ 0 then (m, dropped + 1)
      else if greatest64 < 10 * m + digit d then (m, 1)
      else (10 * m + digit d, 0))
    (0, 0)

/-- Reads digits behind the point into a number and its exponent, for as long as there is room in
64 bits. -/
def fractionPart (m : Nat) (exponent : Int) : List UInt8 → Nat × Int
  | [] => (m, exponent)
  | d :: rest =>
    if greatest64 < 10 * m + digit d then (m, exponent)
    else fractionPart (10 * m + digit d) (exponent - 1) rest

/-- A power of ten, rounded. -/
def powerOfTen (n : Nat) : Option Decimal.Binary64 := Decimal.Binary64.ofNat? (Nat.pow 10 n)

/-- Scales by a power of ten; nothing if the result is too large. Powers beyond `10 ^ 308` are
taken apart. -/
def scale (x : Decimal.Binary64) (e : Int) : Option Decimal.Binary64 :=
  if _small : e.natAbs ≤ 308 then do
    let power ← powerOfTen e.natAbs
    if 0 ≤ e then x.mul? power else x.div? power
  else if x.significand = 0 then some x
  else if _large : 0 ≤ e then none
  else do
    let power ← powerOfTen 308
    scale (← x.div? power) (e + 308)
termination_by e.natAbs
decreasing_by omega

/-- The floating-point number with a given sign, significand and decimal exponent. -/
def float (minus : Bool) (m : Nat) (e : Int) : Except Error Number :=
  match (Decimal.Binary64.ofNat? m).bind (scale · e) with
  | some x => .ok (.float ⟨minus, x⟩)
  | none => .error (.malformed .numberOutOfRange)

/-- Reads an exponent behind its letter. -/
def readExponent (minus : Bool) (m : Nat) (e : Int) (s : List UInt8) :
    Except Error (Number × List UInt8) :=
  let (down, s) := match s with
    | b :: rest =>
      if b = byte '+' then (false, rest) else if b = byte '-' then (true, rest) else (false, s)
    | [] => (false, s)
  match s with
  | [] => .error (.unfinished .value)
  | b :: _ =>
    if !isDigit b then .error (.malformed .invalidNumber)
    else
      let n := (s.takeWhile isDigit).foldl (fun n d => 10 * n + digit d) 0
      let rest := s.dropWhile isDigit
      match float minus m (if down then e - n else e + n) with
      | .ok x => .ok (x, rest)
      | .error e => .error e

/-- Reads what may follow the digits of a number. -/
def readScaled (minus : Bool) (m : Nat) (e : Int) (s : List UInt8) :
    Except Error (Number × List UInt8) :=
  match s with
  | b :: rest =>
    if b = byte 'e' || b = byte 'E' then readExponent minus m e rest
    else (·, s) <$> float minus m e
  | [] => (·, s) <$> float minus m e

/-- Reads the digits behind a point. -/
def readFraction (minus : Bool) (m : Nat) (e : Int) (s : List UInt8) :
    Except Error (Number × List UInt8) :=
  match s with
  | [] => .error (.unfinished .value)
  | b :: _ =>
    if !isDigit b then .error (.malformed .invalidNumber)
    else
      let (m, e) := fractionPart m e (s.takeWhile isDigit)
      readScaled minus m e (s.dropWhile isDigit)

/-- The number without point and exponent that digits denote. -/
def exact (minus : Bool) (m dropped : Nat) : Except Error Number :=
  if dropped ≠ 0 then float minus m dropped
  else if !minus then .ok (.natural m)
  else if m = 0 ∨ 1 <<< 63 < m then float minus m 0
  else .ok (.negative m)

/-- Reads a number behind its sign. -/
def readNumber (minus : Bool) (s : List UInt8) : Except Error (Number × List UInt8) :=
  match s with
  | [] => .error (.unfinished .value)
  | b :: _ =>
    let digits := s.takeWhile isDigit
    if !isDigit b || (b = byte '0' && digits.length ≠ 1) then .error (.malformed .invalidNumber)
    else
      let (m, dropped) := wholePart digits
      match s.dropWhile isDigit with
      | [] => (·, []) <$> exact minus m dropped
      | c :: rest =>
        if c = byte '.' then readFraction minus m dropped rest
        else if c = byte 'e' || c = byte 'E' then readExponent minus m dropped rest
        else (·, c :: rest) <$> exact minus m dropped

end PropertyGraph.Json
