/-!
# Outcomes

When a computation that may fail succeeds, taken apart along its steps: first for `Except` alone,
then for steps that come in a list, and then for readers, which also hand on what they leave of
their input.
-/

namespace PropertyGraph

variable {ε α β σ : Type}

/-! ## Computations -/

/-- A change of a result succeeds only if there is one to change. -/
theorem exists_of_map_eq_ok {f : α → β} {x : Except ε α} {b : β} (h : f <$> x = .ok b) :
    ∃ a, x = .ok a ∧ f a = b := by
  cases x with
  | error e => nomatch h
  | ok a => exact ⟨a, rfl, Except.ok.inj h⟩

theorem eq_ok_of_toOption {x : Except ε α} {a : α} (h : x.toOption = some a) : x = .ok a := by
  cases x with
  | error e => nomatch h
  | ok b => exact congrArg _ (Option.some.inj h)

/-- A change of a result succeeds exactly if there is one. -/
theorem map_eq_ok_iff {f : α → β} {x : Except ε α} {b : β} :
    f <$> x = .ok b ↔ ∃ a, x = .ok a ∧ f a = b := by
  refine ⟨exists_of_map_eq_ok, ?_⟩
  rintro ⟨a, rfl, rfl⟩
  rfl

/-- It fails as what it changes does. -/
theorem map_eq_error_iff {f : α → β} {x : Except ε α} {e : ε} :
    f <$> x = .error e ↔ x = .error e := by
  cases x with
  | error e' => exact ⟨fun eq => congrArg _ (Except.error.inj eq),
      fun eq => congrArg _ (Except.error.inj eq)⟩
  | ok a => exact ⟨nofun, nofun⟩

/-- Two steps succeed exactly if the first does and then the second. -/
theorem bind_eq_ok_iff {x : Except ε α} {f : α → Except ε β} {b : β} :
    x >>= f = .ok b ↔ ∃ a, x = .ok a ∧ f a = .ok b := by
  constructor
  · intro eq
    cases x with
    | error e => nomatch eq
    | ok a => exact ⟨a, rfl, eq⟩
  · rintro ⟨a, rfl, eq⟩
    exact eq

/-! ## Steps one after the other -/

section

variable {p : List α → α → Prop}

/-- A list of steps is cut at its first one or at one of the others. -/
theorem exists_cut_cons_iff {a : α} {l : List α} :
    (∃ front b rest, a :: l = front ++ b :: rest ∧ p front b) ↔
      p [] a ∨ ∃ front b rest, l = front ++ b :: rest ∧ p (a :: front) b := by
  constructor
  · rintro ⟨_ | ⟨c, front⟩, b, rest, cut, h⟩
    · obtain ⟨rfl, rfl⟩ := List.cons.inj cut
      exact .inl h
    · obtain ⟨rfl, rfl⟩ := List.cons.inj cut
      exact .inr ⟨front, b, rest, rfl, h⟩
  · rintro (h | ⟨front, b, rest, rfl, h⟩)
    · exact ⟨[], a, l, rfl, h⟩
    · exact ⟨a :: front, b, rest, rfl, h⟩

/-- An empty list cannot be cut at one of its members. -/
theorem not_exists_cut_nil : ¬ ∃ front b rest, [] = front ++ b :: rest ∧ p front b := by
  rintro ⟨front, b, rest, cut, -⟩
  cases front <;> nomatch cut

end

/-! ## Readers -/

variable {r : StateT σ (Except ε) α} {s s' : σ} {a : α}

/-- The second step goes on from the state that the first has left. -/
theorem run_bind_of_ok {f : α → StateT σ (Except ε) β} (h : r s = .ok (a, s')) :
    (r >>= f) s = f a s' := by
  show (r s >>= fun x => f x.1 x.2) = _
  rw [h]
  rfl

/-- It is not taken if the first fails. -/
theorem run_bind_of_error {f : α → StateT σ (Except ε) β} {e : ε} (h : r s = .error e) :
    (r >>= f) s = .error e := by
  show (r s >>= fun x => f x.1 x.2) = _
  rw [h]
  rfl

/-- Two steps succeed exactly if the first does and then the second, from where that has ended. -/
theorem run_bind_eq_ok_iff {f : α → StateT σ (Except ε) β} {b : β × σ} :
    (r >>= f) s = .ok b ↔ ∃ a s', r s = .ok (a, s') ∧ f a s' = .ok b := by
  show (r s >>= fun x => f x.1 x.2) = _ ↔ _
  rw [bind_eq_ok_iff, Prod.exists]

/-- A change of a result leaves the state alone. -/
theorem run_map_of_ok {f : α → β} (h : r s = .ok (a, s')) : (f <$> r) s = .ok (f a, s') := by
  show (r s >>= fun x => pure (f x.1, x.2)) = _
  rw [h]
  rfl

/-- It passes on a failure. -/
theorem run_map_of_error {f : α → β} {e : ε} (h : r s = .error e) : (f <$> r) s = .error e := by
  show (r s >>= fun x => pure (f x.1, x.2)) = _
  rw [h]
  rfl

/-- It succeeds exactly if there is a result. -/
theorem run_map_eq_ok_iff {f : α → β} {b : β} :
    (f <$> r) s = .ok (b, s') ↔ ∃ a, r s = .ok (a, s') ∧ f a = b := by
  show (r s >>= fun x => pure (f x.1, x.2)) = _ ↔ _
  rw [bind_eq_ok_iff, Prod.exists]
  constructor
  · rintro ⟨a, s'', ok, ⟨⟩⟩
    exact ⟨a, ok, rfl⟩
  · rintro ⟨a, ok, rfl⟩
    exact ⟨a, s', ok, rfl⟩

end PropertyGraph
