import PropertyGraph.Json.Tree
import PropertyGraph.Proofs.Json.Lookahead

/-!
# Members one after the other

Lists and objects are read by one kind of loop (`Loop`): as long as another member is ahead, it is
read, and what it says is added to what is known; then comes what stands behind the last one. The
loop counts its steps. It delimits the text of the members up to the closing sign if every member is
taken (`Loop.Goes`), whatever the style in which they are laid out.
-/

namespace PropertyGraph.Json

variable {α β σ : Type}

/-! ## Layout -/

namespace Style

/-- What stands in front of an item at a depth of nesting, as bytes. -/
def gap (style : Style) (depth : Nat) : List UInt8 := Utf8.encode (style.lead depth)

/-- What stands between the colon and the value behind a key, as bytes. -/
def pad : Style → List UInt8
  | compact => []
  | indented => [byte ' ']

/-- The colon behind a key as bytes. -/
theorem encode_colon (style : Style) : Utf8.encode style.colon = byte ':' :: style.pad := by
  cases style <;> rfl

/-- Between colon and value there are blanks at most. -/
theorem blank_pad (style : Style) : Blank style.pad := by
  cases style
  · exact blank_nil
  · exact List.forall_mem_singleton.2 (by decide)

/-- An indented member stands on a line of its own. -/
theorem gap_indented (depth : Nat) :
    indented.gap depth = byte '\n' :: List.replicate (2 * depth) (byte ' ') := by
  have ascii : ∀ c ∈ '\n' :: List.replicate (2 * depth) ' ', c.toNat < 0x80 :=
    List.forall_mem_cons.2 ⟨by decide, fun c hc => by
      rw [List.eq_of_mem_replicate hc]
      decide⟩
  rw [gap, lead, encode_ascii ascii, List.map_cons, List.map_replicate]

/-- Between members there are blanks at most. -/
theorem blank_gap (style : Style) (depth : Nat) : Blank (style.gap depth) := by
  cases style with
  | compact => exact blank_nil
  | indented =>
    rw [gap_indented]
    refine List.forall_mem_cons.2 ⟨by decide, fun b hb => ?_⟩
    rw [List.eq_of_mem_replicate hb]
    decide

end Style

namespace Frame

section

variable (frame : Frame) (style : Style) (depth : Nat)

/-- What stands behind a member of a list or object: further members, and the closing sign. -/
def behind : List (List UInt8) → List UInt8
  | [] => style.gap depth ++ [frame.closing]
  | w :: rest => byte ',' :: style.gap (depth + 1) ++ (w ++ behind rest)

/-- What stands behind the opening sign of a list or object. -/
def inside : List (List UInt8) → List UInt8
  | [] => [frame.closing]
  | w :: rest => style.gap (depth + 1) ++ (w ++ frame.behind style depth rest)

/-- A member ends in front of a comma or the closing sign. -/
theorem ends_behind (members : List (List UInt8)) (rest : List UInt8) :
    Ends (frame.behind style depth members ++ rest) := by
  cases members with
  | cons w members => exact ends_cons (by decide)
  | nil =>
    cases style with
    | indented =>
      rw [behind, Style.gap_indented]
      exact ends_cons (by decide)
    | compact => cases frame <;> exact ends_cons (by decide)

/-- Every member has a comma in front of it, and all have the closing sign behind them. -/
theorem length_behind (members : List (List UInt8)) :
    members.length < (frame.behind style depth members).length := by
  induction members with
  | nil => simp [behind]
  | cons w rest ih =>
    simp only [behind, List.length_cons, List.length_append]
    omega

/-- There are no more members than bytes. -/
theorem length_inside (members : List (List UInt8)) :
    members.length ≤ (frame.inside style depth members).length := by
  cases members with
  | nil => exact Nat.zero_le _
  | cons w rest =>
    have := frame.length_behind style depth rest
    simp only [inside, List.length_cons, List.length_append]
    omega

end

end Frame

/-! ## Loops -/

/-- **A loop** that reads the members of a list or object. -/
structure Loop (σ β : Type) where
  /-- Where the members stand. -/
  frame : Frame
  /-- Reads one member. -/
  member : σ → Reader σ
  /-- Reads what stands behind the last one. -/
  finish : σ → Reader β

namespace Loop

variable (l : Loop σ β)

/-- Reads members, `steps` at most, and what stands behind them. -/
def run : Nat → Bool → σ → Reader β
  | 0, _, _ => fun _ => .error (.unfinished l.frame.unfinished)
  | steps + 1, first, s => do
    if ← l.frame.ahead first then run steps false (← l.member s) else l.finish s

/-- The members are taken one after the other, from `s` to `t`. -/
inductive Goes : List (List UInt8) → σ → σ → Prop
  | nil {s : σ} : Goes [] s s
  | cons {w : List UInt8} {rest : List (List UInt8)} {s s' t : σ} :
      (∃ b v, w = b :: v ∧ l.frame.Starts b) → Takes (l.member s) w s' → Goes rest s' t →
      Goes (w :: rest) s t

variable {l}

/-- A loop runs short where the text ends. -/
theorem run_nil (steps : Nat) (first : Bool) (s : σ) :
    RunsShort EndsEarly (l.run steps first s) [] := by
  cases steps with
  | zero => exact ⟨_, endsEarly_unfinished _, rfl⟩
  | succ steps => exact ((l.frame.ahead_end blank_nil first).cut rfl).bind

/-- A loop with fewer steps does the same, or stops early. -/
theorem run_stopsAt {m k : Nat} (le : m ≤ k) (first : Bool) (s : σ) :
    StopsAt EndsEarly (l.run m first s) (l.run k first s) := by
  induction m generalizing k first s with
  -- without steps a loop complains as it does at the end of a text
  | zero => exact fun _ => .inr ⟨_, endsEarly_unfinished _, rfl⟩
  | succ m ih =>
    obtain ⟨k, rfl⟩ := Nat.exists_eq_add_one_of_ne_zero (by omega : k ≠ 0)
    refine .bind (.refl _) fun more => ?_
    cases more with
    | false => exact .refl _
    | true => exact .bind (.refl _) fun s' => ih (by omega) false s'

section

variable {style : Style} {depth steps : Nat} {first : Bool} {pre : List UInt8} {s s' t : σ} {b : β}

/-- A loop without further members ends with the closing sign. -/
theorem run_delimits_nil (blank : Blank pre)
    (finish : Delimits EndsEarly (l.finish s) [l.frame.closing] b) :
    Delimits EndsEarly (l.run (steps + 1) first s) (pre ++ [l.frame.closing]) b :=
  (l.frame.ahead_end blank first).bind ⟨_, _, rfl, rfl⟩ finish

/-- A member that is announced by what stands in front of it. -/
theorem run_delimits_cons {w : List UInt8} {rest : List (List UInt8)}
    (ahead : LooksPast (l.frame.ahead first) pre true l.frame.Starts)
    (starts : ∃ b v, w = b :: v ∧ l.frame.Starts b) (takes : Takes (l.member s) w s')
    (others : Delimits EndsEarly (l.run steps false s') (l.frame.behind style depth rest) b) :
    Delimits EndsEarly (l.run (steps + 1) first s)
      (pre ++ (w ++ l.frame.behind style depth rest)) b := by
  obtain ⟨c, v, rfl, start⟩ := starts
  refine ahead.bind ⟨c, _, List.cons_append, start⟩ ?_
  exact takes.bind others (l.frame.ends_behind style depth rest) (run_nil steps false)

variable {members : List (List UInt8)}

/-- By induction on them, a loop delimits the members that are left. -/
theorem run_delimits (goes : l.Goes members s t)
    (finish : Delimits EndsEarly (l.finish t) [l.frame.closing] b)
    (enough : members.length < steps) :
    Delimits EndsEarly (l.run steps false s) (l.frame.behind style depth members) b := by
  induction goes generalizing steps with
  | nil =>
    obtain ⟨steps, rfl⟩ := Nat.exists_eq_add_one_of_ne_zero (by omega : steps ≠ 0)
    exact run_delimits_nil (style.blank_gap depth) finish
  | cons starts takes _ ih =>
    obtain ⟨steps, rfl⟩ := Nat.exists_eq_add_one_of_ne_zero (by omega : steps ≠ 0)
    rw [List.length_cons] at enough
    exact run_delimits_cons (l.frame.ahead_next (style.blank_gap (depth + 1))) starts takes
      (ih finish (by omega))

/-- **A loop delimits its members** together with their closing sign. -/
theorem delimits (style : Style) (depth : Nat) (goes : l.Goes members s t)
    (finish : Delimits EndsEarly (l.finish t) [l.frame.closing] b) :
    Delimits EndsEarly (fun w => l.run (w.length + 1) true s w)
      (l.frame.inside style depth members) b := by
  refine .of_steps (fun steps enough => ?_) (fun le => run_stopsAt le true s)
    (l.frame.length_inside style depth members)
  obtain ⟨steps, rfl⟩ := Nat.exists_eq_add_one_of_ne_zero (by omega : steps ≠ 0)
  cases goes with
  | nil => exact run_delimits_nil blank_nil finish
  | cons starts takes others =>
    rw [List.length_cons] at enough
    exact run_delimits_cons (l.frame.ahead_first (style.blank_gap (depth + 1))) starts takes
      (run_delimits others finish (by omega))

end

end Loop

end PropertyGraph.Json
