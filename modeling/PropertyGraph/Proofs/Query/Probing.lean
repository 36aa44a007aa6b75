import PropertyGraph.Proofs.Query.Places

/-!
# What probes pass

A probe *reads* what is written in some way (`Probe.Reads`) if it passes nothing else, and if it
passes every part that is so written, unless something follows that would make it go on or turn
back.

Since a probe takes the first alternative that passes and as much as it can, the second half is
where it might go wrong: it asks of each repetition that what follows it neither continues nor
breaks the last part. For lists this is said once, in `series_sound` and `series_complete`.
-/

namespace PropertyGraph.Query

namespace Probe

variable {α β : Type} {p q : Probe α} {c d e : Cursor}

/-! ## Single probes -/

@[simp] theorem pass_rule (r : Rule) (p : Probe α) : (rule r p).pass = p.pass := rfl

@[simp] theorem pass_blanks (c : Cursor) : blanks.pass c = some ((), c.skipBlanks) := rfl

@[simp] theorem pass_offset (c : Cursor) : offset.pass c = some (c.offset, c) := rfl

/-- The second part is tried where the first has ended. -/
theorem pass_bind (p : Probe α) (f : α → Probe β) (c : Cursor) :
    (p >>= f).pass c = (p.pass c).bind fun x => (f x.1).pass x.2 := by
  show (Probe.bind p f).pass c = _
  unfold Probe.bind
  dsimp only
  cases p.pass c <;> rfl

/-- Once its first part has passed, a sequence is its second part. -/
theorem pass_bind_of_some {f : α → Probe β} {x : α} (h : p.pass c = some (x, d)) :
    (p >>= f).pass c = (f x).pass d := by
  rw [pass_bind, h, Option.bind_some]

/-- A sequence passes exactly if its parts pass one behind the other. -/
theorem pass_bind_eq_some {f : α → Probe β} {y : β} :
    (p >>= f).pass c = some (y, e) ↔
      ∃ x d, p.pass c = some (x, d) ∧ (f x).pass d = some (y, e) := by
  rw [pass_bind, Option.bind_eq_some_iff]
  simp only [Prod.exists]

theorem pass_blanks_bind (f : Unit → Probe β) (c : Cursor) :
    (blanks >>= f).pass c = (f ()).pass c.skipBlanks := rfl

/-- Blanks are passed up to what is none. -/
theorem pass_blanks_of_ends (h : c.Blanks d) (ends : d.Ends isSeparator) :
    blanks.pass c = some ((), d) := by
  rw [pass_blanks, h.skipBlanks_eq_of_ends ends]

/-- It does not matter how many of the blanks have been passed before. -/
theorem pass_blanks_of_passed (passed : c.Blanks e) (h : c.Blanks d) (ends : d.Ends isSeparator) :
    blanks.pass e = some ((), d) := by
  rw [pass_blanks, ← passed.skipBlanks_eq, h.skipBlanks_eq_of_ends ends]

/-- The second of two alternatives counts only where the first does not pass. -/
theorem pass_orElse_eq_some {x : α × Cursor} :
    (orElse p q).pass c = some x ↔
      p.pass c = some x ∨ p.pass c = none ∧ q.pass c = some x :=
  Option.or_eq_some_iff

theorem pass_optional_of_some {x : α} (h : p.pass c = some (x, d)) :
    (optional p).pass c = some (some x, d) := by
  unfold optional
  simp only [h]

theorem pass_optional_of_none (h : p.pass c = none) :
    (optional p).pass c = some (none, c) := by
  unfold optional
  simp only [h]

/-- A part that may be missing is missing only where it does not pass, and then nothing is passed.
-/
theorem pass_optional_eq_some {x : Option α} :
    (optional p).pass c = some (x, d) ↔
      (∃ y, p.pass c = some (y, d) ∧ x = some y) ∨ p.pass c = none ∧ x = none ∧ d = c := by
  cases h : p.pass c with
  | none =>
    rw [pass_optional_of_none h]
    simp only [Option.some.injEq, Prod.mk.injEq, reduceCtorEq, false_and, exists_false, false_or,
      true_and, eq_comm]
  | some y =>
    rw [pass_optional_of_some h]
    obtain ⟨y, d'⟩ := y
    constructor
    · rintro ⟨⟩
      exact .inl ⟨y, rfl, rfl⟩
    · rintro (⟨_, ⟨⟩, rfl⟩ | ⟨⟨⟩, -⟩)
      rfl

/-- A character is passed where it stands and nowhere else. -/
theorem pass_char_eq_some {k : Char} {u : Unit} :
    (char k).pass c = some (u, d) ↔ c.Over [k] d := by
  show (if c.rest.head? = some k then some ((), c.skip 1) else none) = _ ↔ _
  rw [Option.ite_none_right_eq_some]
  constructor
  · rintro ⟨first, ⟨⟩⟩
    obtain ⟨s, rest⟩ := List.head?_eq_some_iff.1 first
    have := Cursor.over_skip (c := c) (n := 1) (by rw [rest]; exact Nat.succ_pos _)
    rwa [rest] at this
  · intro h
    exact ⟨by rw [h.rest_eq]; rfl, by rw [h.eq_skip]; rfl⟩

theorem pass_char_of_over {k : Char} (h : c.Over [k] d) : (char k).pass c = some ((), d) :=
  pass_char_eq_some.2 h

/-- A run takes all characters of its class that follow, be it none. -/
theorem pass_run_eq_some {cls : Char → Bool} {t : List Char} :
    (run cls).pass c = some (t, d) ↔ c.Over t d ∧ (∀ k ∈ t, cls k) ∧ d.Ends cls := by
  show some (c.rest.takeWhile cls, c.skip (c.rest.takeWhile cls).length) = _ ↔ _
  constructor
  · rintro ⟨⟩
    exact ⟨c.over_takeWhile cls, List.all_eq_true.1 List.all_takeWhile, c.ends_takeWhile cls⟩
  · rintro ⟨path, all, ends⟩
    rw [Cursor.takeWhile_eq_of_over path all ends, path.eq_skip]

/-- A run that must not be empty takes all characters of its class that follow, one at least. -/
theorem pass_run1_eq_some {cls : Char → Bool} {t : List Char} :
    (run1 cls).pass c = some (t, d) ↔
      c.Over t d ∧ t ≠ [] ∧ (∀ k ∈ t, cls k) ∧ d.Ends cls := by
  show (if (c.rest.takeWhile cls).isEmpty then none else (run cls).pass c) = _ ↔ _
  rw [Option.ite_none_left_eq_some, List.isEmpty_iff, and_left_comm, ← pass_run_eq_some]
  refine and_congr_left fun h => ?_
  rw [show c.rest.takeWhile cls = t from congrArg Prod.fst (Option.some.inj h)]

/-- A keyword passes in any mixture of cases. -/
theorem pass_caseless_eq_some {word : String} {u : Unit} :
    (caseless word).pass c = some (u, d) ↔ ∃ m, c.Over m d ∧ isKeyword word m := by
  show (if (c.rest.take word.length).map Char.toLower = word.toList
    then some ((), c.skip word.length) else none) = _ ↔ _
  simp only [Option.ite_none_right_eq_some, isKeyword, decide_eq_true_eq]
  constructor
  · rintro ⟨same, ⟨⟩⟩
    have long := congrArg List.length same
    rw [List.length_map, List.length_take, String.length_toList] at long
    exact ⟨_, Cursor.over_skip (by omega), same⟩
  · rintro ⟨m, path, same⟩
    have long := congrArg List.length same
    rw [List.length_map, String.length_toList] at long
    have taken : c.rest.take word.length = m := by rw [path.rest_eq, ← long, List.take_left]
    exact ⟨by rw [taken, same], by rw [path.eq_skip, long]⟩

/-- A look ahead passes nothing, and only where no character of the class follows. -/
theorem pass_notAhead_eq_some {cls : Char → Bool} {u : Unit} :
    (notAhead cls).pass c = some (u, d) ↔ d = c ∧ c.Ends cls := by
  have ends : c.Ends cls ↔ ¬ c.rest.head?.any cls := by
    unfold Cursor.Ends
    cases c.rest.head? <;> simp
  show (if c.rest.head?.any cls then none else some ((), c)) = _ ↔ _
  rw [Option.ite_none_left_eq_some, ← ends, and_comm]
  exact and_congr_left fun _ => ⟨fun h => by cases h; rfl, fun h => by rw [h]⟩

/-- The end is passed at the end. -/
theorem pass_finish_eq_some {u : Unit} : finish.pass c = some (u, d) ↔ d = c ∧ c.rest = [] := by
  show (if c.rest.isEmpty then some ((), c) else none) = _ ↔ _
  rw [Option.ite_none_right_eq_some, List.isEmpty_iff, and_comm]
  exact and_congr_left fun _ => ⟨fun h => by cases h; rfl, fun h => by rw [h]⟩

/-! ## Reading what is written -/

/-- **A probe reads what is written in some way**, where each part so written starts with a
character of the class `start`, and nothing of the class `stop` may follow it. -/
structure Reads (p : Probe α) (written : Written α) (start stop : Char → Bool) : Prop where
  /-- What is passed is so written. -/
  sound {c d a} : p.pass c = some (a, d) → ∃ t, c.Over t d ∧ written c.offset t a
  /-- What is so written is passed, if what follows does not change that. -/
  complete {c d t a} : c.Over t d → written c.offset t a → d.Ends stop → p.pass c = some (a, d)
  /-- How a part starts. -/
  starts {n t a} : written n t a → ∃ k s, t = k :: s ∧ start k
  /-- It does not start with a blank. -/
  solid {k} : start k → isSeparator k = false

variable {written : Written α} {start stop : Char → Bool} {t : List Char} {a : α}

/-- A probe fails where its parts cannot start. -/
theorem Reads.pass_eq_none (h : p.Reads written start stop) (ends : c.Ends start) :
    p.pass c = none := by
  refine Option.eq_none_iff_forall_ne_some.2 fun x eq => ?_
  obtain ⟨t, path, w⟩ := h.sound eq
  obtain ⟨k, s, rfl, first⟩ := h.starts w
  rw [ends k (by rw [path.rest_eq]; rfl)] at first
  exact Bool.false_ne_true first

/-- Making a part a rule has no bearing on what it reads. -/
theorem Reads.rule (h : p.Reads written start stop) (r : Rule) :
    (rule r p).Reads written start stop := ⟨h.sound, h.complete, h.starts, h.solid⟩

/-- A larger class of characters may be forbidden behind a part. -/
theorem Reads.mono {stop' : Char → Bool} (h : p.Reads written start stop)
    (larger : ∀ k, stop k → stop' k) : p.Reads written start stop' where
  sound := h.sound
  complete path w ends := h.complete path w fun k first => by
    cases eq : stop k with
    | false => rfl
    | true => rw [← larger k eq, ends k first]
  starts := h.starts
  solid := h.solid

/-- It does not matter how one puts the way in which something is written. -/
theorem Reads.congr {written' : Written α} (h : p.Reads written start stop)
    (same : ∀ n t a, written n t a ↔ written' n t a) : p.Reads written' start stop := by
  obtain rfl : written = written' := by
    ext n t a
    exact same n t a
  exact h

/-- What is made of a part may be changed. -/
theorem Reads.map {f : α → β} (h : p.Reads written start stop) :
    (do return f (← p) : Probe β).Reads (fun n t b => ∃ a, written n t a ∧ b = f a) start stop where
  sound eq := by
    obtain ⟨a, _, eq, ⟨⟩⟩ := pass_bind_eq_some.1 eq
    obtain ⟨t, path, w⟩ := h.sound eq
    exact ⟨t, path, a, w, rfl⟩
  complete := by
    rintro c d t - path ⟨a, w, rfl⟩ ends
    rw [pass_bind_of_some (h.complete path w ends)]
    rfl
  starts := by
    rintro n t - ⟨a, w, rfl⟩
    exact h.starts w
  solid := h.solid

/-- An alternative is read if the one in front of it cannot start as it does. -/
theorem Reads.orElse {written' : Written α} {start' : Char → Bool}
    (hp : p.Reads written start stop) (hq : q.Reads written' start' stop)
    (apart : ∀ k, start' k → start k = false) :
    (orElse p q).Reads (fun n t a => written n t a ∨ written' n t a)
      (fun k => start k || start' k) stop where
  sound eq := by
    obtain eq | ⟨-, eq⟩ := pass_orElse_eq_some.1 eq
    · obtain ⟨t, path, w⟩ := hp.sound eq
      exact ⟨t, path, .inl w⟩
    · obtain ⟨t, path, w⟩ := hq.sound eq
      exact ⟨t, path, .inr w⟩
  complete path w ends := by
    refine pass_orElse_eq_some.2 ?_
    obtain w | w := w
    · exact .inl (hp.complete path w ends)
    · -- the first alternative is tried all the same, and fails at the first character
      obtain ⟨k, s, rfl, first⟩ := hq.starts w
      have none := hp.pass_eq_none (Cursor.ends_of_over path (apart k first))
      exact .inr ⟨none, hq.complete path w ends⟩
  starts := by
    rintro n t a (w | w)
    · obtain ⟨k, s, eq, first⟩ := hp.starts w
      exact ⟨k, s, eq, by rw [first, Bool.true_or]⟩
    · obtain ⟨k, s, eq, first⟩ := hq.starts w
      exact ⟨k, s, eq, by rw [first, Bool.or_true]⟩
  solid h := (Bool.or_eq_true_iff.1 h).elim hp.solid hq.solid

/-- No character of a word follows a part that stands alone. -/
theorem ends_of_alone (eq : (alone p).pass c = some (a, d)) : d.Ends isWordChar := by
  obtain ⟨_, b, -, eq⟩ := pass_bind_eq_some.1 eq
  obtain ⟨_, _, ahead, ⟨⟩⟩ := pass_bind_eq_some.1 eq
  obtain ⟨rfl, ends⟩ := pass_notAhead_eq_some.1 ahead
  exact ends

/-- Behind a part that stands alone, the start of a word is what may not follow. -/
theorem Reads.alone (h : p.Reads written start stop) (larger : ∀ k, stop k → isWordChar k) :
    (alone p).Reads written start isWordChar where
  sound eq := by
    obtain ⟨a, b, eq, eq'⟩ := pass_bind_eq_some.1 eq
    obtain ⟨_, d, ahead, ⟨⟩⟩ := pass_bind_eq_some.1 eq'
    obtain ⟨rfl, -⟩ := pass_notAhead_eq_some.1 ahead
    exact h.sound eq
  complete path w ends := by
    have eq := (h.mono larger).complete path w ends
    have ahead : (notAhead isWordChar).pass _ = some ((), _) :=
      pass_notAhead_eq_some.2 ⟨rfl, ends⟩
    unfold Probe.alone
    rw [pass_bind_of_some eq, pass_bind_of_some ahead]
    rfl
  starts := h.starts
  solid := h.solid

/-- There is no blank in front of a part. -/
theorem Reads.ends_isSeparator (h : p.Reads written start stop) (path : c.Over t d)
    (w : written c.offset t a) : c.Ends isSeparator := by
  obtain ⟨k, s, rfl, first⟩ := h.starts w
  exact Cursor.ends_of_over path (h.solid first)

/-- What is passed behind blanks is written with blanks in front. -/
theorem spaced_sound (h : p.Reads written start stop)
    (eq : (do blanks; p : Probe α).pass c = some (a, d)) :
    ∃ t, c.Over t d ∧ Spaced written c.offset t a := by
  rw [pass_bind, pass_blanks] at eq
  obtain ⟨w, gap, path⟩ := c.blanks_skipBlanks
  obtain ⟨t, path', written'⟩ := h.sound eq
  rw [path.offset_eq] at written'
  exact ⟨w ++ t, path.append path', gap, written'⟩

/-- What is written with blanks in front is passed behind them. -/
theorem spaced_complete (h : p.Reads written start stop) (path : c.Over t d)
    (w : Spaced written c.offset t a) (ends : d.Ends stop) :
    (do blanks; p : Probe α).pass c = some (a, d) := by
  obtain ⟨gap, w⟩ := w
  obtain ⟨b, path, path'⟩ := Cursor.over_append_iff.1 path
  rw [← path.offset_eq] at w
  rw [pass_bind_of_some (pass_blanks_of_ends ⟨_, gap, path⟩ (h.ends_isSeparator path' w))]
  exact h.complete path' w ends

/-- A character that is no blank reads itself. -/
theorem char_reads {k : Char} (solid : isSeparator k = false) :
    (char k).Reads (fun _ t _ => t = [k]) (· = k) fun _ => false where
  sound eq := ⟨_, pass_char_eq_some.1 eq, rfl⟩
  complete path eq _ := pass_char_eq_some.2 (eq ▸ path)
  starts eq := ⟨k, [], eq, decide_eq_true rfl⟩
  solid eq := by rwa [of_decide_eq_true eq]

/-- What is written behind a character is this character, and the rest with blanks in front. -/
theorem behind_iff {k : Char} {n : Nat} :
    Behind k written n t a ↔ ∃ s, t = k :: s ∧ Spaced written (n + [k].length) s a := by
  constructor
  · rintro ⟨gap, w⟩
    rw [List.length_cons, Nat.add_comm _ 1, ← Nat.add_assoc] at w
    exact ⟨_, List.cons_append, gap, w⟩
  · rintro ⟨s, rfl, gap, w⟩
    rw [List.length_singleton, Nat.add_assoc, Nat.add_comm 1] at w
    exact .mk gap w

/-- What stands behind a character is read as it would be without. -/
theorem Reads.behind (h : p.Reads written start stop) {k : Char} (solid : isSeparator k = false) :
    (behind k p).Reads (Behind k written) (· = k) stop where
  sound eq := by
    obtain ⟨_, b, first, eq⟩ := pass_bind_eq_some.1 eq
    have path := pass_char_eq_some.1 first
    obtain ⟨t, path', w⟩ := spaced_sound h eq
    rw [path.offset_eq] at w
    exact ⟨_, path.append path', behind_iff.2 ⟨t, rfl, w⟩⟩
  complete path w ends := by
    obtain ⟨t, rfl, item⟩ := behind_iff.1 w
    obtain ⟨b, path, path'⟩ := (Cursor.over_append_iff (t := [k])).1 path
    rw [← path.offset_eq] at item
    unfold Probe.behind
    rw [pass_bind_of_some (pass_char_of_over path)]
    exact spaced_complete h path' item ends
  starts w := by
    obtain ⟨s, rfl, -⟩ := behind_iff.1 w
    exact ⟨k, s, rfl, decide_eq_true rfl⟩
  solid eq := by rwa [of_decide_eq_true eq]

/-! ## Lists -/

/-- A list has no more parts than its text has characters, since no part is empty. -/
theorem Reads.length_le {n : Nat} {as : List α} (h : p.Reads written start stop)
    (list : Listed (Spaced written) n t as) : as.length ≤ t.length := by
  induction list with
  | nil => exact Nat.le_refl 0
  | cons first _ ih =>
    obtain ⟨-, w⟩ := first
    obtain ⟨k, s, rfl, -⟩ := h.starts w
    rw [List.length_cons, List.length_append, Nat.add_comm]
    refine Nat.add_le_add ?_ ih
    rw [List.length_append, List.length_cons]
    exact Nat.le_add_left 1 _

/-- In front of a list there is nothing that may not follow its last part. -/
theorem Reads.ends_of_listed {n : Nat} {as : List α} (h : p.Reads written start stop)
    (apart : ∀ k, isSeparator k ∨ start k → stop k = false) (path : c.Over t d)
    (list : Listed (Spaced written) n t as) (ends : d.Ends stop) : c.Ends stop := by
  cases list with
  | nil => rwa [← Cursor.over_nil_iff.1 path]
  | cons first _ =>
    obtain @⟨w, _, _, gap, item⟩ := first
    cases w with
    | nil =>
      obtain ⟨k, s, rfl, starts⟩ := h.starts item
      exact Cursor.ends_of_over path (apart k (.inr starts))
    | cons k s => exact Cursor.ends_of_over path (apart k (.inl (gap k List.mem_cons_self)))

/-- A repetition whose part passes goes on behind that. -/
theorem pass_repeated_of_some {n : Nat} (h : p.pass c = some (a, d)) :
    (p.repeated (n + 1)).pass c = ((p.repeated n).pass d).map fun x => (a :: x.1, x.2) := by
  conv => lhs; unfold repeated
  simp only [h]

/-- A repetition whose part does not pass is over. -/
theorem pass_repeated_of_none {n : Nat} (h : p.pass c = none) :
    (p.repeated (n + 1)).pass c = some ([], c) := by
  conv => lhs; unfold repeated
  simp only [h]

/-- What a repetition passes is written as a list. -/
theorem repeated_sound {n : Nat} {as : List α} (h : p.Reads written start stop)
    (eq : (repeated (do blanks; p) n).pass c = some (as, d)) :
    ∃ t, c.Over t d ∧ Listed (Spaced written) c.offset t as := by
  induction n generalizing c as with
  | zero =>
    cases eq
    exact ⟨[], .refl _, .nil⟩
  | succ n ih =>
    cases first : (do blanks; p : Probe α).pass c with
    | none =>
      rw [pass_repeated_of_none first] at eq
      cases eq
      exact ⟨[], .refl _, .nil⟩
    | some x =>
      obtain ⟨a, b⟩ := x
      rw [pass_repeated_of_some first, Option.map_eq_some_iff] at eq
      obtain ⟨⟨as, e⟩, others, ⟨⟩⟩ := eq
      obtain ⟨t, path, item⟩ := spaced_sound h first
      obtain ⟨rest, path', items⟩ := ih others
      rw [path.offset_eq] at items
      exact ⟨t ++ rest, path.append path', .cons item items⟩

/-- A list is read to its end, if nothing that follows could be another part. -/
theorem repeated_complete {n : Nat} {as : List α} (h : p.Reads written start stop)
    (apart : ∀ k, isSeparator k ∨ start k → stop k = false) (path : c.Over t d)
    (list : Listed (Spaced written) c.offset t as) (ends : d.Ends stop)
    (last : d.skipBlanks.Ends start) (enough : as.length ≤ n) :
    (repeated (do blanks; p) n).pass c = some (as, d) := by
  -- the induction is on how often a part may still be tried; the list never asks for more
  induction n generalizing c t as with
  | zero =>
    obtain rfl := List.eq_nil_of_length_eq_zero (Nat.le_zero.1 enough)
    cases list
    rw [Cursor.over_nil_iff.1 path]
    rfl
  | succ n ih =>
    generalize start_eq : c.offset = m at list
    cases list with
    | nil =>
      rw [Cursor.over_nil_iff.1 path] at last ⊢
      exact pass_repeated_of_none (by rw [pass_bind, pass_blanks]; exact h.pass_eq_none last)
    | cons item items =>
      obtain ⟨b, path, path'⟩ := Cursor.over_append_iff.1 path
      rw [← start_eq] at item
      rw [← start_eq, ← path.offset_eq] at items
      have first := spaced_complete h path item (h.ends_of_listed apart path' items ends)
      rw [pass_repeated_of_some first, ih path' items (Nat.le_of_succ_le_succ enough)]
      rfl

/-- The first of many has no blanks in front, while the others may have some. -/
theorem pass_manyWithin_of_some {n : Nat} (h : p.pass c = some (a, d)) :
    (manyWithin n p).pass c =
      ((repeated (do blanks; p) n).pass d).map fun x => (a :: x.1, x.2) := by
  unfold manyWithin
  rw [pass_bind, pass_optional_of_some h, Option.bind_some, pass_bind]
  cases (repeated (do blanks; p) n).pass d <;> rfl

theorem pass_manyWithin_of_none {n : Nat} (h : p.pass c = none) :
    (manyWithin n p).pass c = some ([], c) := by
  unfold manyWithin
  rw [pass_bind, pass_optional_of_none h]
  rfl

/-- What many pass is written as a list, and at most blanks follow that. -/
theorem many_sound {as : List α} (h : p.Reads written start stop)
    (eq : (many p).pass c.skipBlanks = some (as, e)) :
    ∃ t d, c.Over t d ∧ Listed (Spaced written) c.offset t as ∧ d.Blanks e := by
  cases first : p.pass c.skipBlanks with
  | none =>
    obtain ⟨⟩ := (pass_manyWithin_of_none first).symm.trans eq
    exact ⟨[], c, .refl c, .nil, c.blanks_skipBlanks⟩
  | some x =>
    obtain ⟨a, b⟩ := x
    have eq := (pass_manyWithin_of_some first).symm.trans eq
    obtain ⟨⟨as, e⟩, others, ⟨⟩⟩ := Option.map_eq_some_iff.1 eq
    obtain ⟨t, path, item⟩ := spaced_sound (c := c) h (by rwa [pass_bind, pass_blanks])
    obtain ⟨rest, path', items⟩ := repeated_sound h others
    rw [path.offset_eq] at items
    exact ⟨t ++ rest, e, path.append path', .cons item items, .refl e⟩

/-- What is written as a list is passed to its end, if nothing that follows could be another part;
some of the blanks that follow may be passed as well. -/
theorem many_complete {as : List α} (h : p.Reads written start stop)
    (apart : ∀ k, isSeparator k ∨ start k → stop k = false) (path : c.Over t d)
    (list : Listed (Spaced written) c.offset t as) (ends : d.Ends stop)
    (last : d.skipBlanks.Ends start) :
    ∃ e, (many p).pass c.skipBlanks = some (as, e) ∧ d.Blanks e := by
  generalize start_eq : c.offset = m at list
  cases list with
  | nil =>
    -- nothing is passed but the blanks that have been passed already
    rw [Cursor.over_nil_iff.1 path] at last ⊢
    exact ⟨_, pass_manyWithin_of_none (h.pass_eq_none last), c.blanks_skipBlanks⟩
  | cons item items =>
    obtain ⟨b, path, path'⟩ := Cursor.over_append_iff.1 path
    rw [← start_eq] at item
    rw [← start_eq, ← path.offset_eq] at items
    have first := spaced_complete h path item (h.ends_of_listed apart path' items ends)
    rw [pass_bind, pass_blanks] at first
    -- no part is empty, so what follows has room for as many as there are
    obtain ⟨_, passed, -⟩ := h.sound first
    have enough := h.length_le items
    refine ⟨d, (pass_manyWithin_of_some first).trans ?_, .refl d⟩
    rw [repeated_complete h apart path' items ends last ?_]
    · rfl
    · rw [passed.rest_eq, path'.rest_eq, List.length_append, List.length_append]
      omega

/-- What a series passes is written as one, and at most blanks follow that. -/
theorem series_sound {first next : Written α} {start₁ stop₁ : Char → Bool} {as : List α}
    (hp : p.Reads first start₁ stop₁) (hq : q.Reads next start stop)
    (eq : (series p q).pass c = some (as, e)) :
    ∃ t d, c.Over t d ∧ Series first next c.offset t as ∧ d.Blanks e := by
  unfold series at eq
  obtain ⟨a, b, one, eq⟩ := pass_bind_eq_some.1 eq
  rw [pass_blanks_bind] at eq
  obtain ⟨as, _, others, ⟨⟩⟩ := pass_bind_eq_some.1 eq
  obtain ⟨t, path, item⟩ := hp.sound one
  obtain ⟨rest, d, path', items, blanks⟩ := many_sound hq others
  rw [path.offset_eq] at items
  exact ⟨t ++ rest, d, path.append path', .mk item items, blanks⟩

/-- A series is passed to its end, if nothing that follows could be another part; some of the
blanks that follow may be passed as well. -/
theorem series_complete {first next : Written α} {start₁ : Char → Bool} {as : List α}
    (hp : p.Reads first start₁ stop) (hq : q.Reads next start stop)
    (apart : ∀ k, isSeparator k ∨ start k → stop k = false) (path : c.Over t d)
    (list : Series first next c.offset t as) (ends : d.Ends stop)
    (last : d.skipBlanks.Ends start) :
    ∃ e, (series p q).pass c = some (as, e) ∧ d.Blanks e := by
  obtain ⟨item, items⟩ := list
  obtain ⟨b, path, path'⟩ := Cursor.over_append_iff.1 path
  rw [← path.offset_eq] at items
  have one := hp.complete path item (hq.ends_of_listed apart path' items ends)
  obtain ⟨e, others, blanks⟩ := many_complete hq apart path' items ends last
  refine ⟨e, ?_, blanks⟩
  unfold series
  rw [pass_bind_of_some one, pass_bind_of_some (pass_blanks b), pass_bind_of_some others]
  rfl

/-- There is no blank in front of a series. -/
theorem Reads.ends_of_series {next : Written α} {as : List α} (h : p.Reads written start stop)
    (path : c.Over t d) (list : Series written next c.offset t as) : c.Ends isSeparator := by
  obtain ⟨item, -⟩ := list
  obtain ⟨b, path, -⟩ := Cursor.over_append_iff.1 path
  exact h.ends_isSeparator path item

end Probe

end PropertyGraph.Query
