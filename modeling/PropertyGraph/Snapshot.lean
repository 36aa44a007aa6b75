/-!
# Snapshots

A snapshot is a list of items with a cursor that walks over it once. The cursor starts in front
of the first item and stays behind the last one once it has got there (`Snapshot.advance_spent`).
-/

namespace PropertyGraph

variable {α : Type}

/-- A list of items with a cursor. -/
structure Snapshot (α : Type) where
  /-- All items, whatever the cursor has passed. -/
  items : List α
  /-- The position of the current item; nothing in front of the first one. -/
  cursor : Option Nat
  deriving DecidableEq

namespace Snapshot

/-- A snapshot whose cursor stands in front of the first item. -/
def ofList (items : List α) : Snapshot α := ⟨items, none⟩

/-- The position behind the cursor's. -/
def next (s : Snapshot α) : Nat :=
  match s.cursor with
  | none => 0
  | some c => c + 1

/-- Moves the cursor on; the answer is whether it stands on an item. -/
def advance (s : Snapshot α) : Bool × Snapshot α :=
  (s.next < s.items.length, { s with cursor := some (min s.next s.items.length) })

/-- The item that the cursor stands on. -/
def value (s : Snapshot α) : Option α := s.cursor.bind (s.items[·]?)

/-- The number of items. -/
def size (s : Snapshot α) : Nat := s.items.length

/-- Whether there is no item. -/
def isEmpty (s : Snapshot α) : Bool := s.items.isEmpty

/-- The items that the cursor has not reached. -/
def rest (s : Snapshot α) : List α := s.items.drop (min s.next s.items.length)

/-- A cursor behind the last item stays there. -/
theorem advance_spent (s : Snapshot α) (h : s.cursor = some s.items.length) :
    s.advance = (false, s) := by
  obtain ⟨items, cursor⟩ := s
  obtain rfl : cursor = some items.length := h
  simp [advance, next, Nat.not_lt.2 (Nat.le_succ _)]

end Snapshot

end PropertyGraph
