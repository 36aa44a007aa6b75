import PropertyGraph.Json.Lexeme

/-!
# Passing over JSON

A record may carry fields that nobody asked for. Their values are passed over: they must be
JSON, nested as deeply as they like, but nothing is made of them. Strings may hold any bytes and
numbers may be of any size.
-/

namespace PropertyGraph.Json

/-- Passes over a string behind its opening quote. -/
def skipString (s : List UInt8) : Except Error (List UInt8) :=
  match s with
  | [] => .error (.unfinished .string)
  | b :: behind =>
    if b = byte '"' then .ok behind
    else if b = byte '\\' then
      match behind with
      | [] => .error (.unfinished .string)
      | e :: rest =>
        if (shortEscape? e).isSome then skipString rest
        else if e = byte 'u' then
          match _read : readHex rest with
          | .error e => .error e
          | .ok (_, rest) => skipString rest
        else .error (.malformed .invalidEscape)
    else if b < 0x20 then .error (.malformed .controlCharacter)
    else skipString behind
termination_by s.length
decreasing_by
  · simp only [List.length_cons]
    omega
  · have := length_readHex _read
    simp only [List.length_cons]
    omega
  · simp

/-- Passes over one or more digits. -/
def skipDigits (s : List UInt8) : Except Error (List UInt8) :=
  if (s.takeWhile isDigit).isEmpty then .error (.malformed .invalidNumber)
  else .ok (s.dropWhile isDigit)

/-- Passes over the exponent of a number, if it has one. -/
def skipExponent (s : List UInt8) : Except Error (List UInt8) :=
  match s with
  | [] => .ok []
  | b :: rest =>
    if b = byte 'e' || b = byte 'E' then
      match rest with
      | [] => skipDigits []
      | c :: rest' => skipDigits (if c = byte '+' || c = byte '-' then rest' else rest)
    else .ok s

/-- Passes over what follows the digits in front of the point of a number. -/
def skipFraction (s : List UInt8) : Except Error (List UInt8) :=
  match s with
  | [] => .ok []
  | b :: rest =>
    if b = byte '.' then do skipExponent (← skipDigits rest)
    else skipExponent s

/-- Passes over a number behind its sign. -/
def skipNumber (s : List UInt8) : Except Error (List UInt8) :=
  let digits := s.takeWhile isDigit
  if digits.head? = some (byte '0') && digits.length ≠ 1 then .error (.malformed .invalidNumber)
  else do skipFraction (← skipDigits s)

/-- Passes over a value that is neither list nor object. -/
def skipScalar (b : UInt8) (rest : List UInt8) : Except Error (List UInt8) :=
  if b = byte 'n' then readIdent "ull".toList rest
  else if b = byte 't' then readIdent "rue".toList rest
  else if b = byte 'f' then readIdent "alse".toList rest
  else if b = byte '-' then skipNumber rest
  else if isDigit b then skipNumber (b :: rest)
  else if b = byte '"' then skipString rest
  else .error (.malformed .expectedValue)

/-- What an unfinished value is inside of. -/
inductive Frame
  | list
  | object
  deriving DecidableEq, Repr

/-- What comes next: a value, a key with the value behind it, or what follows a value. -/
inductive Phase
  | value
  | key
  | after
  deriving DecidableEq, Repr

/-- What a text ends inside of that ends in a frame. -/
def Frame.unfinished : Frame → Unfinished
  | list => .list
  | object => .object

/-- The sign that closes a frame. -/
def Frame.closing : Frame → UInt8
  | list => byte ']'
  | object => byte '\x7d'

/-- What is missing between two members of a frame. -/
def Frame.missingComma : Frame → Malformed
  | list => .expectedCommaOrBracket
  | object => .expectedCommaOrBrace

/-- What comes first in a frame, or behind a comma in it. -/
def Frame.member : Frame → Phase
  | list => .value
  | object => .key

/-- The frame that a sign opens. -/
def Frame.opened? (b : UInt8) : Option Frame :=
  if b = byte '[' then some .list else if b = byte '\x7b' then some .object else none

/-- Passes over a key and the colon behind it. -/
def skipKey (s : List UInt8) : Except Error (List UInt8) :=
  match skipBlanks s with
  | [] => .error (.unfinished .object)
  | b :: rest =>
    if b ≠ byte '"' then .error (.malformed .keyNotString)
    else do
      match skipBlanks (← skipString rest) with
      | [] => .error (.unfinished .object)
      | c :: rest => if c = byte ':' then .ok rest else .error (.malformed .expectedColon)

/-- Passes over the rest of a value that is inside of the given frames, the innermost first, in
`fuel` steps at most. Every step passes over at least one byte. -/
def skipFrom : Nat → Phase → List Frame → List UInt8 → Except Error (List UInt8)
  | _, .after, [], s => .ok s
  | 0, _, _, _ => .error (.unfinished .value)
  | fuel + 1, .value, frames, s =>
    match skipBlanks s with
    | [] => .error (.unfinished .value)
    | b :: rest =>
      match Frame.opened? b with
      | some frame =>
        match skipBlanks rest with
        | [] => .error (.unfinished frame.unfinished)
        | c :: inner =>
          if c = frame.closing then skipFrom fuel .after frames inner
          else skipFrom fuel frame.member (frame :: frames) rest
      | none => do skipFrom fuel .after frames (← skipScalar b rest)
  | fuel + 1, .key, frames, s => do skipFrom fuel .value frames (← skipKey s)
  | fuel + 1, .after, frame :: frames, s =>
    match skipBlanks s with
    | [] => .error (.unfinished frame.unfinished)
    | b :: rest =>
      if b = byte ',' then skipFrom fuel frame.member (frame :: frames) rest
      else if b = frame.closing then skipFrom fuel .after frames rest
      else .error (.malformed frame.missingComma)

/-- Passes over one value. -/
def skipValue : Reader Unit := fun s => ((), ·) <$> skipFrom (s.length + 1) .value [] s

end PropertyGraph.Json
