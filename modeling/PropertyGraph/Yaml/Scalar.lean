/-!
# Scalars of YAML

The text is taken as a list of `Sign`s: characters that know their line and column, counted from
zero, because in YAML columns carry meaning. Here are the readers for the two kinds of scalar, the
plain and the quoted ones. Both may run over several lines: a single line break inside them stands
for a blank, and of several the first one is dropped.
-/

namespace PropertyGraph.Yaml

/-! ## Signs -/

/-- A character with its place. -/
structure Sign where
  /-- The character. -/
  char : Char
  /-- How many bytes of UTF-8 stand in front of it. -/
  offset : Nat
  /-- How many lines stand above it. -/
  line : Nat
  /-- How many characters stand in front of it in its line. -/
  column : Nat
  deriving DecidableEq, Repr

/-- Writes each line break that stands for nothing but itself as a line feed. -/
def normalizeBreaks : List Char → List Char
  | '\r' :: '\n' :: rest => '\n' :: normalizeBreaks rest
  | c :: rest => (if c = '\r' || c = '\x85' then '\n' else c) :: normalizeBreaks rest
  | [] => []

/-- Whether a character ends a line. -/
def isBreak (c : Char) : Bool := c = '\n' || c = '\u2028' || c = '\u2029'

/-- Whether a character is a blank within a line. -/
def isBlank (c : Char) : Bool := c = ' ' || c = '\t'

/-- Whether a character separates. -/
def isSpace (c : Char) : Bool := isBlank c || isBreak c

/-- Characters with their places, from a given place on. -/
def locateFrom (offset line column : Nat) : List Char → List Sign
  | [] => []
  | c :: rest =>
    ⟨c, offset, line, column⟩ ::
      if isBreak c then locateFrom (offset + c.utf8Size) (line + 1) 0 rest
      else locateFrom (offset + c.utf8Size) line (column + 1) rest

/-- The characters of a text with their places. -/
def locate (text : List Char) : List Sign := locateFrom 0 0 0 (normalizeBreaks text)

/-- Whether nothing follows, or something that separates. -/
def atEdge : List Sign → Bool
  | [] => true
  | s :: _ => isSpace s.char

/-- Whether three times the same character stands alone at the start of a line. -/
def isDocumentMark (c : Char) : List Sign → Bool
  | x :: y :: z :: rest =>
    x.column = 0 && x.char = c && y.char = c && z.char = c && atEdge rest
  | _ => false

/-- Whether a document starts or ends here. -/
def atDocumentMark (s : List Sign) : Bool := isDocumentMark '-' s || isDocumentMark '.' s

/-! ## Gaps -/

/-- Reads what separates two parts of a scalar: the blanks of the line and the line breaks. Tabs
in front of column `limit` of a later line are not allowed. -/
def readGap (limit : Nat) : Bool → List Sign → Option (List Char × List Char × List Sign)
  | _, [] => some ([], [], [])
  | broken, s :: rest =>
    if isBlank s.char then
      if broken && s.char = '\t' && s.column < limit then none
      else do
        let (blanks, breaks, rest) ← readGap limit broken rest
        return (if broken then blanks else s.char :: blanks, breaks, rest)
    else if isBreak s.char then do
      let (_, breaks, rest) ← readGap limit true rest
      return ([], s.char :: breaks, rest)
    else some ([], [], s :: rest)

theorem length_readGap {limit : Nat} {broken : Bool} {s r : List Sign} {blanks breaks : List Char}
    (h : readGap limit broken s = some (blanks, breaks, r)) : r.length ≤ s.length := by
  induction s generalizing broken blanks breaks with
  | nil => simp_all [readGap]
  | cons a s ih =>
    simp only [readGap] at h
    split at h
    · split at h
      · cases h
      · obtain ⟨⟨b, d, e⟩, hg, he⟩ := Option.bind_eq_some_iff.1 h
        cases he
        exact Nat.le_succ_of_le (ih hg)
    · split at h
      · obtain ⟨⟨b, d, e⟩, hg, he⟩ := Option.bind_eq_some_iff.1 h
        cases he
        exact Nat.le_succ_of_le (ih hg)
      · cases h
        exact Nat.le_refl _

theorem length_readGap_of_isSpace {limit : Nat} {broken : Bool} {a : Sign} {s r : List Sign}
    {blanks breaks : List Char} (ha : isSpace a.char)
    (h : readGap limit broken (a :: s) = some (blanks, breaks, r)) : r.length < s.length + 1 := by
  simp only [readGap] at h
  split at h
  · split at h
    · cases h
    · obtain ⟨⟨b, d, e⟩, hg, he⟩ := Option.bind_eq_some_iff.1 h
      cases he
      exact Nat.lt_succ_of_le (length_readGap hg)
  · split at h
    · obtain ⟨⟨b, d, e⟩, hg, he⟩ := Option.bind_eq_some_iff.1 h
      cases he
      exact Nat.lt_succ_of_le (length_readGap hg)
    · simp_all [isSpace]

/-- A gap that is not empty takes up signs, which is why reading in lines comes to an end. -/
theorem length_readGap_lt {limit : Nat} {broken : Bool} {s r : List Sign}
    {blanks breaks : List Char} (h : readGap limit broken s = some (blanks, breaks, r))
    (hne : ¬(blanks = [] ∧ breaks = [])) : r.length < s.length := by
  cases s with
  | nil => simp_all [readGap]
  | cons a s =>
    by_cases ha : isSpace a.char
    · exact length_readGap_of_isSpace ha h
    · simp_all [readGap, isSpace]

/-- What a gap stands for. -/
def foldGap (blanks : List Char) : List Char → List Char
  | [] => blanks
  | ['\n'] => [' ']
  | '\n' :: breaks => breaks
  | breaks => breaks

/-! ## Plain scalars -/

/-- Whether a character opens, closes or separates in a list or mapping between brackets. -/
def isFlowSign (c : Char) : Bool :=
  c = ',' || c = '[' || c = ']' || c = '\x7b' || c = '\x7d'

/-- Reads a part of a plain scalar without blanks. Between brackets a colon must not stand in
front of a bracket or comma. -/
def plainRun (inFlow : Bool) : List Sign → Option (List Char × List Sign)
  | [] => some ([], [])
  | s :: rest =>
    if isSpace s.char then some ([], s :: rest)
    else if inFlow && s.char = ':' && rest.head?.any (fun t => t.char = '?' || isFlowSign t.char)
    then none
    else if (s.char = ':' && atEdge rest) || (inFlow && isFlowSign s.char) then
      some ([], s :: rest)
    else do
      let (run, rest) ← plainRun inFlow rest
      return (s.char :: run, rest)

/-- A run is a front part of what is read. -/
theorem length_plainRun {inFlow : Bool} {s r : List Sign} {run : List Char}
    (h : plainRun inFlow s = some (run, r)) : r.length ≤ s.length := by
  induction s generalizing run with
  | nil => simp_all [plainRun]
  | cons a s ih =>
    simp only [plainRun] at h
    split at h
    · cases h
      exact Nat.le_refl _
    · split at h
      · cases h
      · split at h
        · cases h
          exact Nat.le_refl _
        · obtain ⟨⟨b, e⟩, hg, he⟩ := Option.bind_eq_some_iff.1 h
          cases he
          exact Nat.le_succ_of_le (ih hg)

/-- Reads a plain scalar; outside of brackets, its lines must reach column `limit`. The answer
tells also whether a line break was read behind it. -/
def readPlain (inFlow : Bool) (limit : Nat) (s : List Sign) :
    Option (List Char × Bool × List Sign) :=
  if atDocumentMark s || s.head?.any (·.char = '#') then some ([], false, s)
  else
    match _run : plainRun inFlow s with
    | none => none
    | some (run, rest) =>
      match _gap : readGap limit false rest with
      | none => none
      | some (blanks, breaks, behind) =>
        if !inFlow && behind.head?.all (·.column < limit) then
          some (run, !breaks.isEmpty, behind)
        else if _none : blanks = [] ∧ breaks = [] then some (run, false, behind)
        else
          match readPlain inFlow limit behind with
          | none => none
          | some (more, broken, rest) =>
            if more.isEmpty then some (run, !breaks.isEmpty, rest)
            else some (run ++ foldGap blanks breaks ++ more, broken, rest)
termination_by s.length
decreasing_by
  have := length_plainRun _run
  have := length_readGap_lt _gap _none
  omega

/-! ## Quoted scalars -/

/-- The escapes of one letter between double quotes, with what they stand for. -/
def escapes : List (Char × Char) :=
  [('0', '\x00'), ('a', '\x07'), ('b', '\x08'), ('t', '\t'), ('\t', '\t'), ('n', '\n'),
    ('v', '\x0b'), ('f', '\x0c'), ('r', '\r'), ('e', '\x1b'), (' ', ' '), ('"', '"'),
    ('/', '/'), ('\\', '\\'), ('N', '\x85'), ('_', '\xa0'), ('L', '\u2028'), ('P', '\u2029')]

/-- How many digits follow the letter of an escape by number. -/
def escapeDigits? (c : Char) : Option Nat :=
  if c = 'x' then some 2 else if c = 'u' then some 4 else if c = 'U' then some 8 else none

/-- The value of a hexadecimal digit. -/
def hexValue? (c : Char) : Option Nat :=
  if '0' ≤ c && c ≤ '9' then some (c.toNat - '0'.toNat)
  else if 'a' ≤ c && c ≤ 'f' then some (c.toNat - 'a'.toNat + 10)
  else if 'A' ≤ c && c ≤ 'F' then some (c.toNat - 'A'.toNat + 10)
  else none

/-- The character with a number written in hexadecimal. -/
def hexChar? (digits : List Char) : Option Char := do
  let n ← digits.foldlM (fun n c => return 16 * n + (← hexValue? c)) 0
  if h : n.isValidChar then return Char.ofNatAux n h else none

/-- Reads what an escape behind its backslash stands for. -/
def readEscape (letter : Sign) (rest : List Sign) : Option (Char × List Sign) :=
  match escapes.find? (·.1 = letter.char) with
  | some e => some (e.2, rest)
  | none => do
    let count ← escapeDigits? letter.char
    if rest.length < count then none
    else return (← hexChar? ((rest.take count).map (·.char)), rest.drop count)

theorem length_readEscape {letter : Sign} {s r : List Sign} {c : Char}
    (h : readEscape letter s = some (c, r)) : r.length ≤ s.length := by
  simp only [readEscape] at h
  split at h
  · cases h
    exact Nat.le_refl _
  · obtain ⟨count, _, h⟩ := Option.bind_eq_some_iff.1 h
    split at h
    · cases h
    · obtain ⟨d, _, h⟩ := Option.bind_eq_some_iff.1 h
      cases h
      simp

/-- A part of a quoted scalar with a character in front of it. -/
def withFirst (c : Char) (part : List Char × Bool × List Sign) : List Char × Bool × List Sign :=
  (c :: part.1, part.2)

theorem exists_of_withFirst {c : Char} {part : Option (List Char × Bool × List Sign)}
    {run : List Char} {broken : Bool} {r : List Sign}
    (h : withFirst c <$> part = some (run, broken, r)) : ∃ run, part = some (run, broken, r) := by
  obtain ⟨⟨run, broken, r⟩, rfl, he⟩ := Option.map_eq_some_iff.1 h
  cases he
  exact ⟨run, rfl⟩

/-- Reads a part of a quoted scalar without blanks. The answer tells also whether the part ends
with an escaped line break. -/
def quotedRun (quote : Char) : List Sign → Option (List Char × Bool × List Sign)
  | [] => some ([], false, [])
  | s :: rest =>
    if isSpace s.char then some ([], false, s :: rest)
    else if s.char = quote then
      match rest with
      | [] => some ([], false, [s])
      | t :: behind =>
        if quote = '\'' && t.char = '\'' then withFirst '\'' <$> quotedRun quote behind
        else some ([], false, s :: t :: behind)
    else if quote = '"' && s.char = '\\' then
      match rest with
      | [] => none
      | letter :: behind =>
        if isBreak letter.char then some ([], true, behind)
        else
          match _escape : readEscape letter behind with
          | none => none
          | some (c, rest) => withFirst c <$> quotedRun quote rest
    else withFirst s.char <$> quotedRun quote rest
termination_by s => s.length
decreasing_by
  · simp only [List.length_cons]
    omega
  · have := length_readEscape _escape
    simp only [List.length_cons]
    omega
  · simp only [List.length_cons]
    omega

/-- A part of a quoted scalar that takes no characters ends at once, at a blank or the quote. -/
theorem quotedRun_rest {quote : Char} {s r : List Sign} {run : List Char} {broken : Bool}
    (h : quotedRun quote s = some (run, broken, r)) :
    r.length < s.length ∨ r = s ∧ ∀ q ∈ r.head?, isSpace q.char ∨ q.char = quote := by
  fun_induction quotedRun quote s generalizing run with
  | case1 =>
    cases h
    exact .inr ⟨rfl, by simp⟩
  | case2 _ _ hs =>
    cases h
    exact .inr ⟨rfl, by simp [hs]⟩
  | case3 _ _ hq | case5 _ _ hq =>
    cases h
    exact .inr ⟨rfl, by simp [hq]⟩
  | case4 _ _ _ _ _ _ ih =>
    obtain ⟨run, h⟩ := exists_of_withFirst h
    rcases ih h with h | ⟨rfl, _⟩ <;> simp only [List.length_cons] <;> omega
  | case6 | case8 => cases h
  | case7 =>
    cases h
    exact .inl (by simp only [List.length_cons]; omega)
  | case9 _ _ _ _ _ _ _ _ _ he ih =>
    have := length_readEscape he
    obtain ⟨run, h⟩ := exists_of_withFirst h
    rcases ih h with h | ⟨rfl, _⟩ <;> simp only [List.length_cons] <;> omega
  | case10 _ _ _ _ _ ih =>
    obtain ⟨run, h⟩ := exists_of_withFirst h
    rcases ih h with h | ⟨rfl, _⟩ <;> simp only [List.length_cons] <;> omega

/-- Reads a quoted scalar behind its opening quote. -/
def readQuoted (quote : Char) (s : List Sign) : Option (List Char × List Sign) :=
  if atDocumentMark s then none
  else
    match _run : quotedRun quote s with
    | none | some (_, _, []) => none
    | some (run, broken, q :: behind) =>
      if q.char = quote then some (run, behind)
      else
        match _gap : readGap 0 broken (q :: behind) with
        | none => none
        | some (blanks, breaks, behind) =>
          match readQuoted quote behind with
          | none => none
          | some (more, rest) =>
            some (run ++ (if broken then breaks else foldGap blanks breaks) ++ more, rest)
termination_by s.length
decreasing_by
  rcases quotedRun_rest _run with h | ⟨rfl, h⟩
  · exact Nat.lt_of_le_of_lt (length_readGap _gap) h
  · have hq : isSpace q.char := by simp_all
    exact length_readGap_of_isSpace hq _gap

end PropertyGraph.Yaml
