import PropertyGraph.Decimal.Integer
import PropertyGraph.Json.Skip

/-!
# Reading JSON of a known shape

Readers for the shapes that records are made of: texts, numbers, lists, maps, records and
variants. A reader goes from left to right and stops at the first fault, be it that the text is
no JSON or that it has another shape.
-/

namespace PropertyGraph.Json

variable {α σ : Type}

namespace Reader

/-! ## Wrong shapes -/

/-- The error for a text that does not start like what was expected: what it starts with, or the
fault in that. -/
def refusal (expected : String) (b : UInt8) (rest : List UInt8) : Error :=
  let found (r : Except Error Found) : Error := match r with
    | .ok f => .wrongShape f expected
    | .error e => e
  if b = byte 'n' then found ((fun _ => .null) <$> readIdent "ull".toList rest)
  else if b = byte 't' then found ((fun _ => .boolean true) <$> readIdent "rue".toList rest)
  else if b = byte 'f' then found ((fun _ => .boolean false) <$> readIdent "alse".toList rest)
  else if b = byte '-' then found ((·.1.found) <$> readNumber true rest)
  else if isDigit b then found ((·.1.found) <$> readNumber false (b :: rest))
  else if b = byte '"' then found ((.string ·.1) <$> readString rest)
  else if b = byte '[' then .wrongShape .sequence expected
  else if b = byte '\x7b' then .wrongShape .map expected
  else .malformed .expectedValue

/-- Looks at the first byte behind blanks, and goes on with it and the bytes behind it. -/
def value (go : UInt8 → List UInt8 → Except Error (α × List UInt8)) : Reader α := fun s =>
  match skipBlanks s with
  | [] => .error (.unfinished .value)
  | b :: rest => go b rest

/-! ## Scalars -/

/-- Reads a string. -/
def text (expected : String) : Reader String := value fun b rest =>
  if b = byte '"' then readString rest else .error (refusal expected b rest)

/-- Reads a truth value. -/
def boolean : Reader Bool := value fun b rest =>
  if b = byte 't' then (true, ·) <$> readIdent "rue".toList rest
  else if b = byte 'f' then (false, ·) <$> readIdent "alse".toList rest
  else .error (refusal "a boolean" b rest)

/-- Reads nothing but `null`. -/
def unit : Reader Unit := value fun b rest =>
  if b = byte 'n' then ((), ·) <$> readIdent "ull".toList rest
  else .error (refusal "unit" b rest)

/-- Reads an integer from `low` to `high`. -/
def integer (low high : Int) (expected : String) : Reader Int := value fun b rest =>
  let number :=
    if b = byte '-' then some (readNumber true rest)
    else if isDigit b then some (readNumber false (b :: rest))
    else none
  match number with
  | none => .error (refusal expected b rest)
  | some (.error e) => .error e
  | some (.ok (.float x, _)) => .error (.wrongShape (.float x) expected)
  | some (.ok (.natural n, rest)) =>
    if (n : Int) ≤ high then .ok (n, rest) else .error (.wrongValue n expected)
  | some (.ok (.negative n, rest)) =>
    if low ≤ -(n : Int) then .ok (-n, rest) else .error (.wrongValue (-n) expected)

/-- Reads a 64-bit integer. -/
def int64 : Reader Int64 := Int64.ofInt <$> integer Decimal.least Decimal.greatest "i64"

/-- Reads a byte. -/
def byte : Reader UInt8 := (fun n => UInt8.ofNat n.toNat) <$> integer 0 255 "u8"

/-- Reads `null` as nothing and all else as a value. -/
def optional (r : Reader α) : Reader (Option α) := fun s =>
  match skipBlanks s with
  | b :: rest =>
    if b = Json.byte 'n' then (none, ·) <$> readIdent "ull".toList rest
    else (fun (a, s) => (some a, s)) <$> r s
  | [] => (fun (a, s) => (some a, s)) <$> r []

/-! ## Lists -/

/-- Whether another item follows in a list, with the bytes from that item on or from the closing
bracket on. -/
def itemAhead (first : Bool) : Reader Bool := fun s =>
  match skipBlanks s with
  | [] => .error (.unfinished .list)
  | b :: rest =>
    if b = Json.byte ']' then .ok (false, b :: rest)
    else if first then .ok (true, b :: rest)
    else if b = Json.byte ',' then
      match skipBlanks rest with
      | [] => .error (.unfinished .value)
      | c :: rest =>
        if c = Json.byte ']' then .error (.malformed .trailingComma) else .ok (true, c :: rest)
    else .error (.malformed .expectedCommaOrBracket)

/-- Reads the items of a list up to its closing bracket, `fuel` at most. -/
def itemsFrom (item : Reader α) : Nat → Bool → Reader (List α)
  | 0, _ => fun _ => .error (.unfinished .list)
  | fuel + 1, first => do
    if ← itemAhead first then
      let a ← item
      let rest ← itemsFrom item fuel false
      return a :: rest
    else return []

/-- Reads the closing bracket of a list. -/
def listEnd : Reader Unit := fun s =>
  match skipBlanks s with
  | [] => .error (.unfinished .list)
  | b :: rest =>
    if b = Json.byte ']' then .ok ((), rest)
    else if b = Json.byte ',' && (skipBlanks rest).head? = some (Json.byte ']') then
      .error (.malformed .trailingComma)
    else .error (.malformed .trailingCharacters)

/-- Reads a list. -/
def list (item : Reader α) : Reader (List α) := value fun b rest =>
  if b = Json.byte '[' then
    (do
      let items ← itemsFrom item (rest.length + 1) true
      listEnd
      return items : Reader (List α)) rest
  else .error (refusal "a sequence" b rest)

/-! ## Maps -/

/-- Whether another key follows in an object, with the bytes from that key on or from the closing
brace on. -/
def keyAhead (first : Bool) : Reader Bool := fun s =>
  match skipBlanks s with
  | [] => .error (.unfinished .object)
  | b :: rest =>
    if b = Json.byte '\x7d' then .ok (false, b :: rest)
    else if first then
      if b = Json.byte '"' then .ok (true, b :: rest) else .error (.malformed .keyNotString)
    else if b = Json.byte ',' then
      match skipBlanks rest with
      | [] => .error (.unfinished .value)
      | c :: rest =>
        if c = Json.byte '"' then .ok (true, c :: rest)
        else if c = Json.byte '\x7d' then .error (.malformed .trailingComma)
        else .error (.malformed .keyNotString)
    else .error (.malformed .expectedCommaOrBrace)

/-- Reads the colon behind a key. -/
def colon : Reader Unit := fun s =>
  match skipBlanks s with
  | [] => .error (.unfinished .object)
  | b :: rest =>
    if b = Json.byte ':' then .ok ((), rest) else .error (.malformed .expectedColon)

/-- Reads the closing brace of an object. -/
def objectEnd : Reader Unit := fun s =>
  match skipBlanks s with
  | [] => .error (.unfinished .object)
  | b :: rest =>
    if b = Json.byte '\x7d' then .ok ((), rest) else .error (.malformed .expectedValue)

/-- Reads the entries of an object up to its closing brace, `fuel` at most. -/
def entriesFrom (item : Reader α) : Nat → Bool → Reader (List (String × α))
  | 0, _ => fun _ => .error (.unfinished .object)
  | fuel + 1, first => do
    if ← keyAhead first then
      let key ← text "a string"
      colon
      let a ← item
      let rest ← entriesFrom item fuel false
      return (key, a) :: rest
    else return []

/-- Reads an object as its entries, in text order and with repeats. -/
def map (item : Reader α) : Reader (List (String × α)) := value fun b rest =>
  if b = Json.byte '\x7b' then
    (do
      let entries ← entriesFrom item (rest.length + 1) true
      objectEnd
      return entries : Reader (List (String × α))) rest
  else .error (refusal "a map" b rest)

/-! ## Records -/

/-- A field of a record that is collected in a `σ`. -/
structure Field (σ : Type) where
  /-- The name of the field. -/
  name : String
  /-- Whether the record needs the field. -/
  required : Bool
  /-- Whether the field has been read. -/
  given : σ → Bool
  /-- Reads the field. -/
  read : σ → Reader σ

/-- A record with named fields in a definite order. -/
structure Record (σ α : Type) where
  /-- The name of the record. -/
  name : String
  /-- The fields. -/
  fields : List (Field σ)
  /-- What has been collected when nothing has. -/
  start : σ
  /-- The record, once all that it needs has been collected. -/
  finish : σ → Option α

namespace Record

variable (r : Record σ α)

/-- Completes a record; the first field that it needs and lacks is missed. -/
def complete (collected : σ) : Except Error α :=
  match r.fields.find? (fun f => f.required && !f.given collected) with
  | some f => .error (.missingField f.name)
  | none =>
    match r.finish collected with
    | some a => .ok a
    | none => .error (.missingField r.name)

/-- Reads the fields of an object up to its closing brace, `fuel` at most. Fields that the record
does not have are passed over. -/
def fieldsFrom : Nat → Bool → σ → Reader σ
  | 0, _, _ => fun _ => .error (.unfinished .object)
  | fuel + 1, first, collected => do
    if ← keyAhead first then
      let key ← text "a string"
      match r.fields.find? (·.name = key) with
      | some f =>
        if f.given collected then throw (.repeatedField key)
        colon
        fieldsFrom fuel false (← f.read collected)
      | none =>
        colon
        skipValue
        fieldsFrom fuel false collected
    else return collected

/-- Reads the fields of a list, in order; those at the end that the record does not need may be
missing. -/
def itemsFrom (length : Nat) (first : Bool) : List (Field σ) → σ → Reader σ
  | [], collected => return collected
  | f :: rest, collected => do
    if ← itemAhead first then itemsFrom (length + 1) false rest (← f.read collected)
    else if f.required then throw (.wrongLength length r.name r.fields.length)
    else itemsFrom (length + 1) first rest collected

/-- Reads a record from an object or from a list of its fields. -/
def read : Reader α := value fun b rest =>
  if b = Json.byte '\x7b' then
    (do
      let a ← r.complete (← r.fieldsFrom (rest.length + 1) true r.start)
      objectEnd
      return a : Reader α) rest
  else if b = Json.byte '[' then
    (do
      let a ← r.complete (← r.itemsFrom 0 true r.fields r.start)
      listEnd
      return a : Reader α) rest
  else .error (refusal s!"struct {r.name}" b rest)

end Record

/-! ## Variants -/

/-- Reads the name of a variant. -/
def variantName (known : List String) : Reader String := do
  let name ← text "variant identifier"
  if known.contains name then return name
  else throw (.unknownVariant name known)

/-- Reads the opening quote of the name of a variant that is the key of an object; the quote is
left in place. -/
def variantKey : Reader Unit := fun s =>
  match skipBlanks s with
  | [] => .error (.unfinished .object)
  | b :: rest =>
    if b = Json.byte '"' then .ok ((), b :: rest)
    else if b = Json.byte '\x7d' then .error (.malformed .expectedValue)
    else .error (.malformed .keyNotString)

/-- Reads a variant: its name alone, or an object with the name as its only key. What comes with
the name is read by `alone` or by `payload`. -/
def variant (known : List String) (alone payload : String → Reader α) : Reader α :=
  value fun b rest =>
    if b = Json.byte '\x7b' then
      (do
        variantKey
        let name ← variantName known
        colon
        let a ← payload name
        objectEnd
        return a : Reader α) rest
    else if b = Json.byte '"' then
      (do alone (← variantName known) : Reader α) (b :: rest)
    else .error (.malformed .expectedValue)

/-- Reads a variant without payload. -/
def bareVariant (named : List (String × α)) : Reader α :=
  let pick (name : String) : Reader α :=
    match named.find? (·.1 = name) with
    | some e => return e.2
    | none => throw (.unknownVariant name (named.map (·.1)))
  variant (named.map (·.1)) pick fun name => do
    unit
    pick name

/-- Reads a variant with a payload. -/
def payloadVariant (named : List (String × Reader α)) : Reader α :=
  variant (named.map (·.1)) (fun _ => throw (.wrongShape .unitVariant "newtype variant"))
    fun name =>
      match named.find? (·.1 = name) with
      | some e => e.2
      | none => throw (.unknownVariant name (named.map (·.1)))

/-- Reads a whole text, behind which only blanks may stand. -/
def all (r : Reader α) (s : List UInt8) : Except Error α :=
  match r s with
  | .error e => .error e
  | .ok (a, rest) =>
    if (skipBlanks rest).isEmpty then .ok a else .error (.malformed .trailingCharacters)

end Reader

end PropertyGraph.Json
