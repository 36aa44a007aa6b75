import PropertyGraph.Proofs.Json.Strings

/-!
# Integers in a JSON text

A number has no closing sign: that it has ended shows in what follows. So a number that was cut off
may be read as a smaller one, but then nothing is left behind it. A reader that *takes* a run of
bytes (`Takes`) reads the run if what follows ends a number (`Ends`), and on less of it runs short
or is left with nothing. Whatever has to stand behind a value is missed then, and so a reader that
goes on delimits the whole again (`Takes.bind`).
-/

namespace PropertyGraph.Json

variable {α β : Type}

/-! ## Values without a closing sign -/

/-- No number goes on with what follows. -/
def Ends (rest : List UInt8) : Prop :=
  ∀ b ∈ rest.head?, isDigit b = false ∧ b ≠ byte '.' ∧ b ≠ byte 'e' ∧ b ≠ byte 'E'

/-- A number ends at the end of a text. -/
theorem ends_nil : Ends [] := fun _ h => nomatch h

/-- It ends in front of what is no digit, point or exponent. -/
theorem ends_cons {b : UInt8} {rest : List UInt8}
    (h : isDigit b = false ∧ b ≠ byte '.' ∧ b ≠ byte 'e' ∧ b ≠ byte 'E') : Ends (b :: rest) := by
  rintro _ ⟨⟩
  exact h

/-- **A reader takes a run of bytes** and makes `a` of it, where the end of the run may show in what
follows only. -/
structure Takes (r : Reader α) (w : List UInt8) (a : α) : Prop where
  /-- It reads the whole run and leaves what follows. -/
  whole : ∀ {rest}, Ends rest → r (w ++ rest) = .ok (a, rest)
  /-- In front of a cut it runs short, or is left with nothing. -/
  cut : ∀ {p q}, w = p ++ q → q ≠ [] → RunsShort EndsEarly r p ∨ ∃ a', r p = .ok (a', [])

variable {r : Reader α} {w w' : List UInt8} {a : α} {b : β}

/-- A reader that delimits a run takes it. -/
theorem takes_of_delimits (h : Delimits EndsEarly r w a) : Takes r w a where
  whole _ := h.whole _
  cut parts ne := .inl (h.cut parts ne)

namespace Takes

/-- What is made of a run may be changed. -/
theorem map (h : Takes r w a) (f : α → β) : Takes (f <$> r) w (f a) where
  whole ends := run_map_of_ok (h.whole ends)
  cut parts ne := by
    rcases h.cut parts ne with missed | ⟨a', eq⟩
    · exact .inl (missed.map f)
    · exact .inr ⟨f a', run_map_of_ok eq⟩

/-- A value at the end of what is read. -/
theorem of_bind {f : α → Reader β} (h : Delimits EndsEarly r w a) (next : Takes (f a) w' b) :
    Takes (r >>= f) (w ++ w') b where
  whole ends := by
    rw [List.append_assoc, run_bind_of_ok (h.whole _), next.whole ends]
  cut parts ne := by
    rcases cut_of_append parts with ⟨q', first, ne'⟩ | ⟨p', rfl, second⟩
    · exact .inl (h.cut first ne').bind
    · rw [RunsShort, run_bind_of_ok (h.whole p')]
      exact next.cut second ne

/-- **What stands behind a value shows that it has ended.** -/
theorem bind {f : α → Reader β} (h : Takes r w a) (next : Delimits EndsEarly (f a) w' b)
    (ends : ∀ rest, Ends (w' ++ rest)) (more : ∀ a', RunsShort EndsEarly (f a') []) :
    Delimits EndsEarly (r >>= f) (w ++ w') b where
  whole rest := by
    rw [List.append_assoc, run_bind_of_ok (h.whole (ends rest)), next.whole]
  cut parts ne := by
    rcases cut_of_append parts with ⟨q', first, ne'⟩ | ⟨p', rfl, second⟩
    · rcases h.cut first ne' with missed | ⟨a', eq⟩
      · exact missed.bind
      · obtain ⟨e, he, fails⟩ := more a'
        exact ⟨e, he, by rw [run_bind_of_ok eq, fails]⟩
    · obtain ⟨e, he, fails⟩ := next.cut second ne
      -- the beginning of what follows ends the value just as well
      have ends' : Ends p' := by
        cases p' with
        | nil => exact ends_nil
        | cons c p' =>
          have := ends []
          rw [second] at this
          exact this
      exact ⟨e, he, by rw [run_bind_of_ok (h.whole ends'), fails]⟩

end Takes

/-! ## Digits -/

/-- The decimal digits of a number, as bytes. -/
def digits (n : Nat) : List UInt8 := (Nat.toDigits 10 n).map byte

/-- A number below ten is one digit. -/
theorem digits_of_lt {n : Nat} (h : n < 10) : digits n = [byte (Nat.digitChar n)] := by
  rw [digits, Nat.toDigits_of_lt_base h]
  rfl

/-- The digits of a larger number are those of its tenth, and a last one. -/
theorem digits_of_le {n : Nat} (h : 10 ≤ n) :
    digits n = digits (n / 10) ++ [byte (Nat.digitChar (n % 10))] := by
  rw [digits, Nat.toDigits_of_base_le (by decide) h, List.map_append]
  rfl

/-- A number has one digit, or one more than its tenth. -/
theorem digits_induction {P : Nat → Prop} (one : ∀ n < 10, P n)
    (more : ∀ n, 10 ≤ n → P (n / 10) → P n) (n : Nat) : P n := by
  induction n using Nat.strongRecOn with
  | ind n ih =>
    rcases Nat.lt_or_ge n 10 with small | large
    · exact one n small
    · exact more n large (ih _ (by omega))

/-- The character for a number below ten is a digit of this value. -/
theorem digit_digitChar {n : Nat} (h : n < 10) : isDigit (byte (Nat.digitChar n)) ∧
    digit (byte (Nat.digitChar n)) = n ∧ (byte (Nat.digitChar n) = byte '0' → n = 0) := by
  have all : ∀ n : Fin 10, isDigit (byte (Nat.digitChar n)) ∧
    digit (byte (Nat.digitChar n)) = n.val ∧ (byte (Nat.digitChar n) = byte '0' → n.val = 0) := by
    decide
  exact all ⟨n, h⟩

/-- Every number has a digit. -/
theorem digits_ne_nil (n : Nat) : digits n ≠ [] := by
  rw [digits, ne_eq, List.map_eq_nil_iff]
  exact Nat.toDigits_ne_nil

/-- Nothing but digits is written for a natural number. -/
theorem isDigit_of_mem_digits {n : Nat} {b : UInt8} (hb : b ∈ digits n) : isDigit b := by
  induction n using digits_induction with
  | one n small =>
    rw [digits_of_lt small, List.mem_singleton] at hb
    exact hb ▸ (digit_digitChar small).1
  | more n large ih =>
    rw [digits_of_le large, List.mem_append, List.mem_singleton] at hb
    rcases hb with hb | rfl
    · exact ih hb
    · exact (digit_digitChar (Nat.mod_lt n (by decide))).1

/-- Only zero starts with a zero. -/
theorem head?_digits {n : Nat} (h : (digits n).head? = some (byte '0')) : n = 0 := by
  induction n using digits_induction with
  | one n small =>
    rw [digits_of_lt small] at h
    exact (digit_digitChar small).2.2 (Option.some.inj h)
  | more n large ih =>
    obtain ⟨b, others, tenth⟩ := List.exists_cons_of_ne_nil (digits_ne_nil (n / 10))
    rw [digits_of_le large, tenth] at h
    have := ih (by rw [tenth]; exact h)
    omega

/-- One more digit makes ten times as much and the digit, as long as there is room. -/
theorem wholePart_concat {front : List UInt8} {m : Nat} {d : UInt8}
    (h : wholePart front = (m, 0)) (room : 10 * m + digit d ≤ greatest64) :
    wholePart (front ++ [d]) = (10 * m + digit d, 0) := by
  rw [wholePart] at h
  rw [wholePart, List.foldl_append, h]
  exact if_neg (Nat.not_lt.2 room)

/-- The digits of a number that is small enough are read as this number, with none left over. -/
theorem wholePart_digits {n : Nat} (small : n ≤ greatest64) : wholePart (digits n) = (n, 0) := by
  induction n using digits_induction with
  | one n lt =>
    have value := (digit_digitChar lt).2.1
    rw [digits_of_lt lt, ← List.nil_append [_], wholePart_concat rfl (by omega)]
    rw [value, Nat.mul_zero, Nat.zero_add]
  | more n large ih =>
    have value := (digit_digitChar (Nat.mod_lt n (by decide : 0 < 10))).2.1
    rw [digits_of_le large, wholePart_concat (ih (by omega)) (by omega), value]
    rw [Nat.div_add_mod]

/-- The beginning of a number's digits is a number's digits. -/
theorem exists_digits_of_front {n : Nat} {p : List UInt8} (front : p <+: digits n) (ne : p ≠ []) :
    ∃ m, p = digits m ∧ m ≤ n ∧ (0 < n → 0 < m) := by
  induction n using digits_induction with
  | one n small =>
    rw [digits_of_lt small, ← List.nil_append [_], List.prefix_concat_iff] at front
    rcases front with rfl | front
    · exact ⟨n, (digits_of_lt small).symm, Nat.le_refl n, id⟩
    · exact absurd (List.prefix_nil.1 front) ne
  | more n large ih =>
    rw [digits_of_le large, List.prefix_concat_iff, ← digits_of_le large] at front
    rcases front with rfl | front
    · exact ⟨n, rfl, Nat.le_refl n, id⟩
    · obtain ⟨m, rfl, le, pos⟩ := ih front
      exact ⟨m, rfl, by omega, fun _ => pos (by omega)⟩

/-! ## Numbers -/

/-- What stands behind a number does not prolong it. -/
theorem takeWhile_digits {n : Nat} {rest : List UInt8} (ends : Ends rest) :
    (digits n ++ rest).takeWhile isDigit = digits n := by
  have none : rest.takeWhile isDigit = [] := by
    cases rest with
    | nil => rfl
    | cons b rest => exact List.takeWhile_cons_of_neg (by rw [(ends b rfl).1]; decide)
  rw [List.takeWhile_append_of_pos fun _ => isDigit_of_mem_digits, none, List.append_nil]

/-- Nor is any of it lost. -/
theorem dropWhile_digits {n : Nat} {rest : List UInt8} (ends : Ends rest) :
    (digits n ++ rest).dropWhile isDigit = rest := by
  rw [List.dropWhile_append_of_pos fun _ => isDigit_of_mem_digits]
  cases rest with
  | nil => rfl
  | cons b rest => exact List.dropWhile_cons_of_neg (by rw [(ends b rfl).1]; decide)

/-- The digits of a number are read as that number, without point or exponent. -/
theorem readNumber_digits (minus : Bool) {n : Nat} (small : n ≤ greatest64) {rest : List UInt8}
    (ends : Ends rest) :
    readNumber minus (digits n ++ rest) = (·, rest) <$> exact minus n 0 := by
  obtain ⟨b, others, first⟩ := List.exists_cons_of_ne_nil (digits_ne_nil n)
  have start : isDigit b := isDigit_of_mem_digits (first ▸ List.mem_cons_self)
  have zero : (b = byte '0' && (digits n).length ≠ 1) = false := by
    refine Bool.and_eq_false_imp.2 fun eq => ?_
    obtain rfl : n = 0 := head?_digits (by rw [first, ← of_decide_eq_true eq]; rfl)
    rfl
  unfold readNumber
  rw [first, List.cons_append]
  dsimp only
  rw [← List.cons_append, ← first, takeWhile_digits ends, dropWhile_digits ends,
    wholePart_digits small, zero, start]
  cases rest with
  | nil => rfl
  | cons c rest =>
    obtain ⟨-, point, e, E⟩ := ends c rfl
    simp [point, e, E]

/-- Digits are no blanks. -/
theorem isBlank_of_isDigit {b : UInt8} (h : isDigit b) : isBlank b = false := by
  cases blank : isBlank b with
  | false => rfl
  | true =>
    simp only [isBlank, Bool.or_eq_true, decide_eq_true_eq] at blank
    rcases blank with ((rfl | rfl) | rfl) | rfl <;> exact absurd h (by decide)

section Integers

variable {low high : Int} {expected : String} {n : Nat} {rest : List UInt8}

/-- A natural number that is in range is read from its digits. -/
theorem integer_digits (small : n ≤ greatest64) (le : n ≤ high) (ends : Ends rest) :
    Reader.integer low high expected (digits n ++ rest) = .ok ((n : Int), rest) := by
  have read := readNumber_digits false small ends
  obtain ⟨b, others, first⟩ := List.exists_cons_of_ne_nil (digits_ne_nil n)
  have start : isDigit b := isDigit_of_mem_digits (first ▸ List.mem_cons_self)
  have plus : b ≠ byte '-' := by
    rintro rfl
    exact absurd start (by decide)
  rw [first, List.cons_append] at read ⊢
  rw [Reader.integer, value_cons (isBlank_of_isDigit start), if_neg plus, if_pos start, read]
  exact if_pos le

/-- A negative one is read from a minus sign and digits. -/
theorem integer_minus (pos : 0 < n) (small : n ≤ 1 <<< 63) (le : low ≤ -n) (ends : Ends rest) :
    Reader.integer low high expected (byte '-' :: (digits n ++ rest)) = .ok (-(n : Int), rest) := by
  have room : n ≤ greatest64 := Nat.le_trans small (by decide)
  have exact_n : exact true n 0 = .ok (.negative n) := by
    have nonzero : ¬ (n = 0 ∨ 1 <<< 63 < n) := by omega
    rw [exact, if_neg (by decide), if_neg (by decide), if_neg nonzero]
  rw [Reader.integer, value_cons (by decide), if_pos rfl, readNumber_digits true room ends, exact_n]
  exact if_pos le

/-- Without a byte there is no number. -/
theorem integer_nil : RunsShort EndsEarly (Reader.integer low high expected) [] :=
  ⟨_, endsEarly_unfinished .value, rfl⟩

/-- The reader of integers takes the digits of a natural number in range. -/
theorem integer_takes_digits (small : n ≤ greatest64) (le : n ≤ high) :
    Takes (Reader.integer low high expected) (digits n) n where
  whole ends := integer_digits small le ends
  cut {p q} parts _ := by
    by_cases ne : p = []
    · exact .inl (ne ▸ integer_nil)
    · obtain ⟨m, rfl, fewer, -⟩ := exists_digits_of_front ⟨q, parts.symm⟩ ne
      refine .inr ⟨m, ?_⟩
      rw [← List.append_nil (digits m)]
      -- a smaller number, so that no bound is missed
      exact integer_digits (by omega) (by omega) ends_nil

/-- It takes a minus sign and the digits of a negative one. -/
theorem integer_takes_minus (pos : 0 < n) (small : n ≤ 1 <<< 63) (le : low ≤ -n) :
    Takes (Reader.integer low high expected) (byte '-' :: digits n) (-n) where
  whole ends := integer_minus pos small le ends
  cut {p q} parts _ := by
    cases p with
    | nil => exact .inl integer_nil
    | cons c p =>
      obtain ⟨rfl, behind⟩ := List.cons.inj parts
      by_cases ne : p = []
      · exact .inl ⟨_, endsEarly_unfinished .value, by rw [ne]; rfl⟩
      · obtain ⟨m, rfl, fewer, stays⟩ := exists_digits_of_front ⟨q, behind.symm⟩ ne
        refine .inr ⟨-m, ?_⟩
        rw [← List.append_nil (digits m)]
        -- not zero, since `-0` is read as a float
        exact integer_minus (stays pos) (by omega) (by omega) ends_nil

/-- How an integer is written: with a minus sign if it is negative, and in digits. -/
theorem encode_toString (z : Int) : Utf8.encode (toString z).toList =
    if z < 0 then byte '-' :: digits z.natAbs else digits z.natAbs := by
  have ascii : ∀ c ∈ Nat.toDigits 10 z.natAbs, c.toNat < 0x80 := fun c hc => by
    have digit := Decimal.isDigit_of_mem_toDigits hc
    simp only [Decimal.isDigit, Bool.and_eq_true, decide_eq_true_eq, Char.le_def] at digit
    exact Nat.lt_of_le_of_lt digit.2 (by decide)
  rw [Decimal.toList_toString]
  split
  · exact encode_ascii (List.forall_mem_cons.2 ⟨by decide, ascii⟩)
  · exact encode_ascii ascii

/-- **An integer in range is read back**, and what is left of one that was cut off is in range
too. -/
theorem integer_takes {z : Int} (least : Decimal.least ≤ low) (greatest : high ≤ greatest64)
    (le : low ≤ z) (ge : z ≤ high) :
    Takes (Reader.integer low high expected) (Utf8.encode (toString z).toList) z := by
  rw [encode_toString]
  split
  next negative =>
    have small : z.natAbs ≤ 1 <<< 63 := by
      rw [show 1 <<< 63 = Decimal.least.natAbs by decide]
      omega
    have taken : Takes (Reader.integer low high expected) (byte '-' :: digits z.natAbs)
        (-(z.natAbs : Int)) := integer_takes_minus (by omega) small (by omega)
    rwa [show -(z.natAbs : Int) = z by omega] at taken
  next positive =>
    have small : z.natAbs ≤ greatest64 := by omega
    have taken : Takes (Reader.integer low high expected) (digits z.natAbs) (z.natAbs : Int) :=
      integer_takes_digits small (by omega)
    rwa [show (z.natAbs : Int) = z by omega] at taken

end Integers

/-- Every 64-bit integer is read back. -/
theorem int64_takes (i : Int64) : Takes Reader.int64 (Utf8.encode (toString i.toInt).toList) i := by
  have lo := i.le_toInt
  have hi := i.toInt_lt
  have taken : Takes (Reader.integer Decimal.least Decimal.greatest "i64")
      (Utf8.encode (toString i.toInt).toList) i.toInt :=
    integer_takes (by decide) (by decide) (by unfold Decimal.least; omega)
      (by unfold Decimal.greatest; omega)
  have made := taken.map Int64.ofInt
  rwa [Int64.ofInt_toInt] at made

/-- So is every byte. -/
theorem byte_takes (b : UInt8) :
    Takes Reader.byte (Utf8.encode (toString (b.toNat : Int)).toList) b := by
  have small := b.toNat_lt
  have taken : Takes (Reader.integer 0 255 "u8") (Utf8.encode (toString (b.toNat : Int)).toList)
      (b.toNat : Int) := integer_takes (by decide) (by decide) (by omega) (by omega)
  have made := taken.map fun n => UInt8.ofNat n.toNat
  rwa [Int.toNat_natCast, UInt8.ofNat_toNat] at made

end PropertyGraph.Json
