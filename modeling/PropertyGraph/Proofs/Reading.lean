import PropertyGraph.Proofs.Outcome

/-!
# Readers that know where to stop

A reader takes bytes from the front of what is left to it. It *delimits* a run of bytes
(`Delimits`) if it reads that run and nothing behind it, whatever follows, and if it runs short on
anything less: on every beginning of the run it fails, and complains of nothing but that there
should be more. The second half is what keeps a file that was cut off from passing for a whole one.

To read one thing after the other keeps both halves (`Delimits.bind`), so a format has them as soon
as its parts do. A reader that repeats itself is given a number of steps by the length of what it
reads; that a text which was cut off leaves it fewer of them does not matter, since all that it does
without them is to run short (`StopsAt`, `Delimits.of_steps`).
-/

namespace PropertyGraph

variable {ε α β : Type} {short : ε → Prop}

/-- A reader fails for want of more bytes. -/
def RunsShort (short : ε → Prop) (r : StateT (List UInt8) (Except ε) α) (s : List UInt8) : Prop :=
  ∃ e, short e ∧ r s = .error e

/-- **A reader delimits a run of bytes** and makes `a` of it. -/
structure Delimits (short : ε → Prop) (r : StateT (List UInt8) (Except ε) α) (w : List UInt8)
    (a : α) : Prop where
  /-- It reads the whole run and leaves what follows. -/
  whole : ∀ rest, r (w ++ rest) = .ok (a, rest)
  /-- It runs short on what comes in front of a cut. -/
  cut : ∀ {p q}, w = p ++ q → q ≠ [] → RunsShort short r p

variable {r : StateT (List UInt8) (Except ε) α} {w w' : List UInt8} {a : α} {b : β}

/-- A cut through two runs goes through the first or through the second. -/
theorem cut_of_append {p q : List UInt8} (h : w ++ w' = p ++ q) :
    (∃ q', w = p ++ q' ∧ q' ≠ []) ∨ ∃ p', p = w ++ p' ∧ w' = p' ++ q := by
  rcases List.append_eq_append_iff.1 h with ⟨p', rfl, rfl⟩ | ⟨q', rfl, rfl⟩
  · exact .inr ⟨p', rfl, rfl⟩
  · cases q' with
    | nil => exact .inr ⟨[], by simp, by simp⟩
    | cons c q' => exact .inl ⟨c :: q', rfl, List.cons_ne_nil _ _⟩

/-- What runs short at once does so whatever comes next. -/
theorem RunsShort.bind {f : α → StateT (List UInt8) (Except ε) β} {s : List UInt8}
    (h : RunsShort short r s) : RunsShort short (r >>= f) s := by
  obtain ⟨e, he, eq⟩ := h
  exact ⟨e, he, run_bind_of_error eq⟩

theorem RunsShort.map {s : List UInt8} (h : RunsShort short r s) (f : α → β) :
    RunsShort short (f <$> r) s := by
  obtain ⟨e, he, eq⟩ := h
  exact ⟨e, he, run_map_of_error eq⟩

namespace Delimits

/-- Nothing is read where there is nothing to read. -/
theorem pure (a : α) : Delimits short (Pure.pure a) [] a where
  whole _ := rfl
  cut parts ne := absurd (List.append_eq_nil_iff.1 parts.symm).2 ne

/-- **One reading after the other.** -/
theorem bind {f : α → StateT (List UInt8) (Except ε) β} (h : Delimits short r w a)
    (next : Delimits short (f a) w' b) : Delimits short (r >>= f) (w ++ w') b where
  whole rest := by
    rw [List.append_assoc, run_bind_of_ok (h.whole _), next.whole]
  cut parts ne := by
    rcases cut_of_append parts with ⟨q', first, ne'⟩ | ⟨p', rfl, second⟩
    · exact (h.cut first ne').bind
    · obtain ⟨e, he, fails⟩ := next.cut second ne
      exact ⟨e, he, by rw [run_bind_of_ok (h.whole p'), fails]⟩

/-- One reading after the other, where the second one takes nothing more. -/
theorem bind_nil {f : α → StateT (List UInt8) (Except ε) β} (h : Delimits short r w a)
    (next : Delimits short (f a) [] b) : Delimits short (r >>= f) w b := by
  have both := h.bind next
  rwa [List.append_nil] at both

theorem map (h : Delimits short r w a) (f : α → β) : Delimits short (f <$> r) w (f a) where
  whole rest := run_map_of_ok (h.whole rest)
  cut parts ne := (h.cut parts ne).map f

/-- A reader that takes one byte and goes on as another reader. -/
theorem cons {r' : StateT (List UInt8) (Except ε) α} {c : UInt8} (first : ∀ s, r (c :: s) = r' s)
    (none : RunsShort short r []) (h : Delimits short r' w a) : Delimits short r (c :: w) a where
  whole rest := (first _).trans (h.whole rest)
  cut {p q} parts ne := by
    cases p with
    | nil => exact none
    | cons d p =>
      obtain ⟨rfl, behind⟩ := List.cons.inj parts
      obtain ⟨e, he, fails⟩ := h.cut behind ne
      exact ⟨e, he, (first p).trans fails⟩

/-- What is cut off is missed. -/
theorem runsShort_of_front (h : Delimits short r w a) {p : List UInt8} (front : p <+: w)
    (ne : p ≠ w) : RunsShort short r p := by
  obtain ⟨q, rfl⟩ := front
  refine h.cut rfl ?_
  rintro rfl
  exact ne (List.append_nil p).symm

end Delimits

/-! ## Fewer steps -/

/-- A reader does what another one does, or runs short before it comes that far. -/
def StopsAt (short : ε → Prop) (r' r : StateT (List UInt8) (Except ε) α) : Prop :=
  ∀ s, r' s = r s ∨ RunsShort short r' s

namespace StopsAt

theorem refl (r : StateT (List UInt8) (Except ε) α) : StopsAt short r r := fun _ => .inl rfl

theorem bind {r' : StateT (List UInt8) (Except ε) α} {f f' : α → StateT (List UInt8) (Except ε) β}
    (h : StopsAt short r' r) (next : ∀ a, StopsAt short (f' a) (f a)) :
    StopsAt short (r' >>= f') (r >>= f) := by
  intro s
  rcases h s with same | stops
  · cases read : r s with
    | error e =>
      rw [read] at same
      exact .inl ((run_bind_of_error same).trans (run_bind_of_error read).symm)
    | ok t =>
      rw [read] at same
      have left : (r' >>= f') s = f' t.1 t.2 := run_bind_of_ok same
      have right : (r >>= f) s = f t.1 t.2 := run_bind_of_ok read
      rw [RunsShort, left, right]
      exact next t.1 t.2
  · exact .inr stops.bind

end StopsAt

/-- **A reader that counts its steps** and allows itself one for each byte, and one more, delimits
what it delimits with enough steps: a text that was cut off leaves it fewer. -/
theorem Delimits.of_steps {r : Nat → StateT (List UInt8) (Except ε) α} {w : List UInt8} {a : α}
    {n : Nat} (h : ∀ steps, n < steps → Delimits short (r steps) w a)
    (fewer : ∀ {m k}, m ≤ k → StopsAt short (r m) (r k)) (long : n ≤ w.length) :
    Delimits short (fun s => r (s.length + 1) s) w a where
  whole rest := by
    refine (h _ ?_).whole rest
    rw [List.length_append]
    omega
  cut {p q} parts ne := by
    obtain ⟨e, he, fails⟩ := (h (max (p.length + 1) (n + 1)) (by omega)).cut parts ne
    rcases fewer (Nat.le_max_left (p.length + 1) (n + 1)) p with same | stops
    · exact ⟨e, he, same.trans fails⟩
    · exact stops

end PropertyGraph
