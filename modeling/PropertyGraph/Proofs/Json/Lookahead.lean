import PropertyGraph.Proofs.Json.Numbers

/-!
# Signs and blanks in a JSON text

Between the values of a text stand signs and blanks. Some readers take a sign, and some only look
past blanks and a comma for what comes next and leave its first byte in place (`LooksPast`); a text
that was cut off in front of that byte leaves them short.
-/

namespace PropertyGraph.Json

variable {α β : Type}

/-! ## Blanks -/

/-- Nothing but blanks. -/
def Blank (s : List UInt8) : Prop := ∀ b ∈ s, isBlank b

theorem blank_nil : Blank [] := fun _ h => nomatch h

/-- Blanks in front are passed over with those that follow. -/
theorem skipBlanks_append {pre : List UInt8} (blank : Blank pre) (s : List UInt8) :
    skipBlanks (pre ++ s) = skipBlanks s :=
  List.dropWhile_append_of_pos blank

/-- Nothing is left of blanks. -/
theorem skipBlanks_blank {pre : List UInt8} (blank : Blank pre) : skipBlanks pre = [] := by
  rw [← List.append_nil pre, skipBlanks_append blank]
  rfl

/-- The front of blanks is blank. -/
theorem Blank.of_append {p q : List UInt8} (blank : Blank (p ++ q)) : Blank p :=
  fun b hb => blank b (List.mem_append_left q hb)

/-! ## Looking ahead -/

/-- **A reader looks past** some bytes, finds `c` out from the byte that comes next, and leaves that
one in place. -/
structure LooksPast (look : Reader α) (pre : List UInt8) (c : α) (start : UInt8 → Prop) : Prop where
  /-- It finds a byte behind `pre` that starts something. -/
  whole : ∀ {b} s, start b → look (pre ++ b :: s) = .ok (c, b :: s)
  /-- It runs short where that byte is missing. -/
  cut : ∀ {p q}, pre = p ++ q → RunsShort EndsEarly look p

/-- **Looking ahead and going on.** -/
theorem LooksPast.bind {look : Reader α} {pre w : List UInt8} {c : α} {start : UInt8 → Prop}
    {f : α → Reader β} {a : β} (h : LooksPast look pre c start)
    (starts : ∃ b s, w = b :: s ∧ start b) (next : Delimits EndsEarly (f c) w a) :
    Delimits EndsEarly (look >>= f) (pre ++ w) a where
  whole rest := by
    obtain ⟨b, s, rfl, hb⟩ := starts
    rw [List.append_assoc, List.cons_append, run_bind_of_ok (h.whole _ hb), ← List.cons_append,
      next.whole]
  cut {p q} parts ne := by
    obtain ⟨b, s, rfl, hb⟩ := starts
    rcases cut_of_append parts with ⟨q', front, -⟩ | ⟨p', rfl, behind⟩
    · exact (h.cut front).bind
    · cases p' with
      | nil =>
        rw [List.append_nil]
        exact (h.cut (List.append_nil pre).symm).bind
      | cons b' p' =>
        obtain ⟨e, he, fails⟩ := next.cut behind ne
        obtain ⟨rfl, -⟩ := List.cons.inj behind
        exact ⟨e, he, by rw [run_bind_of_ok (h.whole _ hb), fails]⟩

/-- What an item of a list may start with. -/
def StartsItem (b : UInt8) : Prop := isBlank b = false ∧ b ≠ byte ']'

section Ahead

variable {pre : List UInt8} (blank : Blank pre)

include blank

/-- In front of the first item a list goes on. -/
theorem itemAhead_first : LooksPast (Reader.itemAhead true) pre true StartsItem where
  whole s hb := by
    rw [Reader.itemAhead, skipBlanks_append blank, skipBlanks_cons hb.1]
    exact if_neg hb.2
  cut parts := ⟨_, endsEarly_unfinished .list, by
    rw [Reader.itemAhead, skipBlanks_blank (parts ▸ blank).of_append]⟩

/-- Behind a comma it does. -/
theorem itemAhead_next :
    LooksPast (Reader.itemAhead false) (byte ',' :: pre) true StartsItem where
  whole s hb := by
    rw [Reader.itemAhead, List.cons_append, skipBlanks_cons (by decide)]
    dsimp only
    rw [if_neg (by decide), if_neg (by decide), if_pos rfl, skipBlanks_append blank,
      skipBlanks_cons hb.1]
    exact if_neg hb.2
  cut {p q} parts := by
    cases p with
    | nil => exact ⟨_, endsEarly_unfinished .list, rfl⟩
    | cons c p =>
      obtain ⟨rfl, rfl⟩ := List.cons.inj parts
      refine ⟨_, endsEarly_unfinished .value, ?_⟩
      rw [Reader.itemAhead, skipBlanks_cons (by decide)]
      dsimp only
      rw [if_neg (by decide), if_neg (by decide), if_pos rfl, skipBlanks_blank blank.of_append]

/-- In front of the closing bracket it does not. -/
theorem itemAhead_end (first : Bool) :
    LooksPast (Reader.itemAhead first) pre false (· = byte ']') where
  whole {b} s hb := by
    subst hb
    rw [Reader.itemAhead, skipBlanks_append blank, skipBlanks_cons (by decide)]
    exact if_pos rfl
  cut parts := ⟨_, endsEarly_unfinished .list, by
    rw [Reader.itemAhead, skipBlanks_blank (parts ▸ blank).of_append]⟩

/-- In front of the first key an object goes on. -/
theorem keyAhead_first : LooksPast (Reader.keyAhead true) pre true (· = byte '"') where
  whole {b} s hb := by
    subst hb
    rw [Reader.keyAhead, skipBlanks_append blank, skipBlanks_cons (by decide)]
    rfl
  cut parts := ⟨_, endsEarly_unfinished .object, by
    rw [Reader.keyAhead, skipBlanks_blank (parts ▸ blank).of_append]⟩

/-- Behind a comma it does. -/
theorem keyAhead_next :
    LooksPast (Reader.keyAhead false) (byte ',' :: pre) true (· = byte '"') where
  whole {b} s hb := by
    subst hb
    rw [Reader.keyAhead, List.cons_append, skipBlanks_cons (by decide)]
    dsimp only
    rw [if_neg (by decide), if_neg (by decide), if_pos rfl, skipBlanks_append blank,
      skipBlanks_cons (by decide)]
    rfl
  cut {p q} parts := by
    cases p with
    | nil => exact ⟨_, endsEarly_unfinished .object, rfl⟩
    | cons c p =>
      obtain ⟨rfl, rfl⟩ := List.cons.inj parts
      refine ⟨_, endsEarly_unfinished .value, ?_⟩
      rw [Reader.keyAhead, skipBlanks_cons (by decide)]
      dsimp only
      rw [if_neg (by decide), if_neg (by decide), if_pos rfl, skipBlanks_blank blank.of_append]

/-- In front of the closing brace it does not. -/
theorem keyAhead_end (first : Bool) :
    LooksPast (Reader.keyAhead first) pre false (· = byte '\x7d') where
  whole {b} s hb := by
    subst hb
    rw [Reader.keyAhead, skipBlanks_append blank, skipBlanks_cons (by decide)]
    exact if_pos rfl
  cut parts := ⟨_, endsEarly_unfinished .object, by
    rw [Reader.keyAhead, skipBlanks_blank (parts ▸ blank).of_append]⟩

end Ahead

/-! ### In lists and objects alike -/

namespace Frame

/-- Whether another member follows. -/
def ahead : Frame → Bool → Reader Bool
  | list => Reader.itemAhead
  | object => Reader.keyAhead

/-- What a member may start with. -/
def Starts : Frame → UInt8 → Prop
  | list => StartsItem
  | object => (· = byte '"')

variable (frame : Frame) {pre : List UInt8} (blank : Blank pre)

include blank

/-- In front of its first member a list or object goes on. -/
theorem ahead_first : LooksPast (frame.ahead true) pre true frame.Starts := by
  cases frame with
  | list => exact itemAhead_first blank
  | object => exact keyAhead_first blank

/-- Behind a comma it does. -/
theorem ahead_next : LooksPast (frame.ahead false) (byte ',' :: pre) true frame.Starts := by
  cases frame with
  | list => exact itemAhead_next blank
  | object => exact keyAhead_next blank

/-- In front of its closing sign it does not. -/
theorem ahead_end (first : Bool) :
    LooksPast (frame.ahead first) pre false (· = frame.closing) := by
  cases frame with
  | list => exact itemAhead_end blank first
  | object => exact keyAhead_end blank first

end Frame

/-- The name of a variant is looked for behind blanks, and its quote is left in place. -/
theorem variantKey_looksPast {pre : List UInt8} (blank : Blank pre) :
    LooksPast Reader.variantKey pre () (· = byte '"') where
  whole {b} s hb := by
    subst hb
    rw [Reader.variantKey, skipBlanks_append blank, skipBlanks_cons (by decide)]
    exact if_pos rfl
  cut parts := ⟨_, endsEarly_unfinished .object, by
    rw [Reader.variantKey, skipBlanks_blank (parts ▸ blank).of_append]⟩

/-! ## Signs -/

theorem colon_delimits : Delimits EndsEarly Reader.colon [byte ':'] () :=
  .cons (fun s => by rw [Reader.colon, skipBlanks_cons (by decide)]; rfl)
    ⟨_, endsEarly_unfinished .object, rfl⟩ (.pure ())

theorem listEnd_delimits : Delimits EndsEarly Reader.listEnd [byte ']'] () :=
  .cons (fun s => by rw [Reader.listEnd, skipBlanks_cons (by decide)]; rfl)
    ⟨_, endsEarly_unfinished .list, rfl⟩ (.pure ())

/-- The closing brace ends an object, be there blanks in front of it or not. -/
theorem objectEnd_delimits {pre : List UInt8} (blank : Blank pre) :
    Delimits EndsEarly Reader.objectEnd (pre ++ [byte '\x7d']) () where
  whole rest := by
    rw [Reader.objectEnd, List.append_assoc, skipBlanks_append blank]
    rfl
  cut {p q} parts ne := by
    have front : p <+: pre := by
      rcases List.prefix_concat_iff.1 ⟨q, parts.symm⟩ with rfl | front
      · exact absurd (List.self_eq_append_right.1 parts) ne
      · exact front
    obtain ⟨q', rfl⟩ := front
    exact ⟨_, endsEarly_unfinished .object, by
      rw [Reader.objectEnd, skipBlanks_blank blank.of_append]⟩

end PropertyGraph.Json
