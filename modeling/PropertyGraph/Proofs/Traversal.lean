import PropertyGraph.Snapshot

/-!
# Going through a snapshot

A cursor is in front of the first item, on an item, or parked behind the last one, and moving it,
reading it and taking what is left each have a way of their own to tell these apart. All three look
at no more than the position behind the cursor (`Snapshot.next`), and this goes up by one with each
move until the cursor is parked (`Snapshot.next_moved`). From there `Snapshot.passes_once` follows:
what is seen on the way and what is left when one stops are the items, each once and in order.

Positions are numbers without bound here. Where they are words, and adding one to the greatest
word has no effect, nothing changes as long as there are words enough to count the items
(`Snapshot.advanceIn_eq`, `Snapshot.restIn_eq`).
-/

namespace PropertyGraph

namespace Snapshot

variable {α : Type} {s : Snapshot α} {items : List α} {k c top : Nat}

/-- The snapshot after a number of moves of its cursor. -/
def moved (s : Snapshot α) : Nat → Snapshot α
  | 0 => s
  | k + 1 => (s.moved k).advance.2

/-- What is seen in a number of moves: after each of them the item that the cursor has come to
stand on, if there is one. -/
def seen (s : Snapshot α) : Nat → List α
  | 0 => []
  | k + 1 => s.seen k ++ (s.moved (k + 1)).value.toList

/-! ## The position behind the cursor -/

/-- The position behind the cursor tells where the cursor is. -/
theorem cursor_eq_some_iff : s.cursor = some c ↔ s.next = c + 1 := by
  unfold next
  cases s.cursor with
  | none => exact iff_of_false nofun nofun
  | some d => exact Option.some_inj.trans Nat.succ_inj.symm

/-- The current item is the one in front of the position behind the cursor. -/
theorem value_of_next_eq (h : s.next = c + 1) : s.value = s.items[c]? := by
  rw [value, cursor_eq_some_iff.2 h]
  rfl

/-- Moving the cursor adds one to the position behind it, unless it is parked. -/
theorem next_advance (s : Snapshot α) : s.advance.2.next = min s.next s.items.length + 1 := rfl

@[simp] theorem items_moved (s : Snapshot α) (k : Nat) : (s.moved k).items = s.items := by
  induction k with
  | zero => rfl
  | succ k ih => exact ih

/-- **The number of moves decides where the cursor is.** It is parked after one move more than
there are items. -/
theorem next_moved (items : List α) (k : Nat) :
    ((ofList items).moved k).next = min k (items.length + 1) := by
  induction k with
  | zero => exact (Nat.zero_min _).symm
  | succ k ih =>
    rw [moved, next_advance, ih, items_moved]
    show min (min k (items.length + 1)) items.length + 1 = _
    omega

/-! ## What is read of it -/

/-- After one move more than its index an item is the current one. -/
theorem value_moved (items : List α) (k : Nat) :
    ((ofList items).moved (k + 1)).value = items[k]? := by
  have next : ((ofList items).moved (k + 1)).next = min k items.length + 1 := by
    rw [next_moved, Nat.succ_min_succ]
  rw [value_of_next_eq next, items_moved]
  show items[min k items.length]? = items[k]?
  obtain inside | behind := Nat.lt_or_ge k items.length
  · rw [Nat.min_eq_left (Nat.le_of_lt inside)]
  · rw [Nat.min_eq_right behind, List.getElem?_eq_none (Nat.le_refl _),
      List.getElem?_eq_none behind]

/-- What is left after some moves is the list without that many items in front. -/
theorem rest_moved (items : List α) (k : Nat) :
    ((ofList items).moved k).rest = items.drop (min k items.length) := by
  rw [rest, next_moved, items_moved]
  show items.drop (min (min k (items.length + 1)) items.length) = _
  rw [Nat.min_assoc, Nat.min_eq_right (Nat.le_succ items.length)]

/-- **Moving shows the items in order**, as many as there were moves, each once. -/
theorem seen_eq_take (items : List α) (k : Nat) : (ofList items).seen k = items.take k := by
  induction k with
  | zero => exact List.take_zero.symm
  | succ k ih => rw [seen, ih, value_moved, List.take_add_one]

/-- Wherever a cursor stands, it stands on an item and shows it, or it is parked and shows none. -/
theorem cursor_moved (at_c : ((ofList items).moved k).cursor = some c) :
    (∃ inside : c < items.length, ((ofList items).moved k).value = some items[c]) ∨
      c = items.length ∧ ((ofList items).moved k).value = none := by
  have next := cursor_eq_some_iff.1 at_c
  have reads : ((ofList items).moved k).value = items[c]? := by
    rw [value_of_next_eq next, items_moved]
    rfl
  rw [next_moved] at next
  rw [reads]
  obtain inside | behind := Nat.lt_or_ge c items.length
  · exact .inl ⟨inside, List.getElem?_eq_getElem inside⟩
  · exact .inr ⟨by omega, List.getElem?_eq_none behind⟩

/-! ## Positions as words -/

/-- The position behind the cursor in words up to `top`, where adding one to `top` gives `top`. -/
def nextIn (top : Nat) (s : Snapshot α) : Nat :=
  match s.cursor with
  | none => 0
  | some c => min (c + 1) top

/-- Moves the cursor on, in words up to `top`. -/
def advanceIn (top : Nat) (s : Snapshot α) : Bool × Snapshot α :=
  (s.nextIn top < s.items.length,
    { s with cursor := some (min (s.nextIn top) s.items.length) })

/-- The items that the cursor has not reached, in words up to `top`. -/
def restIn (top : Nat) (s : Snapshot α) : List α :=
  s.items.drop (min (s.nextIn top) s.items.length)

/-- In words, the position behind the cursor goes no further than the greatest of them. -/
theorem nextIn_eq (top : Nat) (s : Snapshot α) : s.nextIn top = min s.next top := by
  unfold nextIn next
  cases s.cursor with
  | none => exact (Nat.zero_min top).symm
  | some c => rfl

/-- What is cut off by the last word is cut off by the number of items anyway. -/
theorem min_nextIn (fits : s.items.length ≤ top) :
    min (s.nextIn top) s.items.length = min s.next s.items.length := by
  rw [nextIn_eq, Nat.min_assoc, Nat.min_eq_right fits]

/-- No move comes to the greatest word if the number of items is a word. -/
theorem advanceIn_eq (fits : s.items.length ≤ top) : s.advanceIn top = s.advance := by
  have found : s.nextIn top < s.items.length ↔ s.next < s.items.length := by
    rw [nextIn_eq]
    omega
  unfold advanceIn advance
  rw [min_nextIn fits, decide_eq_decide.2 found]

theorem restIn_eq (fits : s.items.length ≤ top) : s.restIn top = s.rest := by
  rw [restIn, min_nextIn fits, rest]

/-! ## All of it -/

/-- **What there is to know of a snapshot** of some items after `k` moves of its cursor. -/
structure Passed (items : List α) (k : Nat) : Prop where
  /-- Move number `k + 1` comes to an item if and only if there are as many. -/
  found : ((ofList items).moved k).advance.1 ↔ k + 1 ≤ items.length
  /-- What is shown is item number `k`, if there is one. -/
  shown : ((ofList items).moved k).value =
    if h : 1 ≤ k ∧ k ≤ items.length then some (items.get ⟨k - 1, by omega⟩) else none
  /-- The number of items stays the same. -/
  size : ((ofList items).moved k).size = items.length
  /-- The items stay the same. -/
  kept : ((ofList items).moved k).items = items
  /-- What is left begins behind as many items as there have been moves. -/
  left : ((ofList items).moved k).rest = items.drop (min k items.length)
  /-- What has been seen and what is left are the items, each once and in order. -/
  once : (ofList items).seen k ++ ((ofList items).moved k).rest = items
  /-- The cursor is never at a position that has no item, except when it is parked right behind
  the last one, and there it shows none. -/
  inside : ∀ c, ((ofList items).moved k).cursor = some c →
    (∃ h : c < items.length, ((ofList items).moved k).value = some items[c]) ∨
      c = items.length ∧ ((ofList items).moved k).value = none
  /-- Words do as well as numbers, whether the next step is a move or taking what is left. -/
  words : ∀ top, items.length ≤ top →
    ((ofList items).moved k).advanceIn top = ((ofList items).moved k).advance ∧
      ((ofList items).moved k).restIn top = ((ofList items).moved k).rest

/-- **A cursor passes each item once.** However many items there are, none included, and however
often the cursor is moved, also far past the end: it comes to the first item with the first move,
to the next with the next, and to none with every later one; it shows the item that it has come to;
what it has not shown is what is left; and it never leaves the list by more than one place. -/
theorem passes_once (items : List α) (k : Nat) : Passed items k where
  found := by
    rw [Snapshot.advance, decide_eq_true_iff, next_moved, items_moved]
    show min k (items.length + 1) < items.length ↔ _
    omega
  shown := by
    cases k with
    | zero => rfl
    | succ k =>
      rw [value_moved]
      split
      next within => exact List.getElem?_eq_getElem within.2
      next beyond => exact List.getElem?_eq_none (by omega)
  size := congrArg List.length (items_moved _ k)
  kept := items_moved _ k
  left := rest_moved items k
  once := by rw [seen_eq_take, rest_moved, List.take_eq_take_min, List.take_append_drop]
  inside _ := cursor_moved
  words top fits := by
    have counted : ((ofList items).moved k).items.length ≤ top := by
      rw [items_moved]
      exact fits
    exact ⟨advanceIn_eq counted, restIn_eq counted⟩

example : (ofList [1, 2, 3, 4]).seen 2 = [1, 2] ∧ ((ofList [1, 2, 3, 4]).moved 2).rest = [3, 4] :=
  ⟨rfl, rfl⟩

end Snapshot

end PropertyGraph
