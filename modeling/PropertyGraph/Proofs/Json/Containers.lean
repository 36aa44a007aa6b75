import Mathlib.Data.List.Forall2
import PropertyGraph.Proofs.Json.Trees

/-!
# Reading what lists and objects say

A list is understood if its items are. An object is read as a map, as a record or as a variant, and
each of these readers understands an object if the readers of its parts understand the values in it:
a map entry by entry, a record by collecting its fields one after the other (`Collects`), a variant
by what comes with its only key. All of them but the last are loops over members, and the text of
each ends in a closing sign, so that it is delimited and not only taken.

The loops keep what they have read, while the readers of lists and maps put it together on the way
back; `listLoop_run` and `mapLoop_run` say that it comes to the same.
-/

namespace PropertyGraph.Json

variable {α σ : Type}

/-! ## Lists -/

section Lists

variable (item : Reader α)

/-- The loop that reads a list. -/
def listLoop : Loop (List α) (List α) where
  frame := .list
  member items := (items ++ [·]) <$> item
  finish items := do
    Reader.listEnd
    return items

/-- The loop reads what the reader of lists does, and puts it behind what it has read before. -/
theorem listLoop_run (steps : Nat) (first : Bool) (known : List α) :
    (listLoop item).run steps first known = (do
      let items ← Reader.itemsFrom item steps first
      Reader.listEnd
      return known ++ items) := by
  induction steps generalizing first known with
  | zero => rfl
  | succ steps ih =>
    rw [Loop.run, Reader.itemsFrom, bind_assoc]
    refine congrArg _ (funext fun more => ?_)
    cases more with
    | false => simp [listLoop]
    | true =>
      show ((listLoop item).member known >>= (listLoop item).run steps false) = _
      rw [funext (ih false)]
      simp [listLoop]

variable {item} (style : Style) (depth : Nat)

/-- Item by item, the loop takes a list. -/
theorem listLoop_goes {trees : List Tree} {items : List α}
    (h : List.Forall₂ (Understands item) trees items) (known : List α) :
    (listLoop item).Goes (trees.map (·.bytes style depth)) known (known ++ items) := by
  induction h generalizing known with
  | nil =>
    rw [List.append_nil]
    exact .nil
  | @cons t a _ _ first _ ih =>
    rw [List.append_cons]
    exact .cons (bytes_start style depth t) ((first.takes style depth).map (known ++ [·]))
      (ih (known ++ [a]))

/-- The closing bracket delimits a list. -/
theorem list_delimits {trees : List Tree} {items : List α}
    (h : List.Forall₂ (Understands item) trees items) :
    Delimits EndsEarly (Reader.list item) ((Tree.list trees).bytes style depth) items := by
  have inside := Loop.delimits style depth (listLoop_goes style (depth + 1) h [])
    (listEnd_delimits.map fun _ => items)
  simp only [listLoop_run, List.nil_append] at inside
  rw [bytes_list]
  exact value_delimits (by decide) inside

/-- **A list is understood if its items are.** -/
theorem list_understands_of_forall₂ {trees : List Tree} {items : List α}
    (h : List.Forall₂ (Understands item) trees items) :
    Understands (Reader.list item) (.list trees) items where
  skips := skipsBlanks_value _
  takes style depth := takes_of_delimits (list_delimits style depth h)

/-- A list is understood if whatever could be an item of it is. -/
theorem list_understands {tree : α → Tree} (h : ∀ a, Understands item (tree a) a)
    (items : List α) : Understands (Reader.list item) (.list (items.map tree)) items :=
  list_understands_of_forall₂ (List.forall₂_map_left_iff.2 (List.forall₂_same.2 fun a _ => h a))

end Lists

/-! ## Maps -/

/-- A value is taken with the colon in front of it. -/
theorem colon_takes {r : Reader α} {t : Tree} {a : α} (h : Understands r t a) (style : Style)
    (depth : Nat) :
    Takes (Reader.colon >>= fun _ => r) (byte ':' :: (style.pad ++ t.bytes style depth)) a :=
  .of_bind colon_delimits (h.takes_append style.blank_pad style depth)

section Maps

variable (item : Reader α)

/-- The loop that reads a map. -/
def mapLoop : Loop (List (String × α)) (List (String × α)) where
  frame := .object
  member entries := do
    let key ← Reader.text "a string"
    Reader.colon
    let a ← item
    return entries ++ [(key, a)]
  finish entries := do
    Reader.objectEnd
    return entries

/-- The loop reads what the reader of maps does, and puts it behind what it has read before. -/
theorem mapLoop_run (steps : Nat) (first : Bool) (known : List (String × α)) :
    (mapLoop item).run steps first known = (do
      let entries ← Reader.entriesFrom item steps first
      Reader.objectEnd
      return known ++ entries) := by
  induction steps generalizing first known with
  | zero => rfl
  | succ steps ih =>
    rw [Loop.run, Reader.entriesFrom, bind_assoc]
    refine congrArg _ (funext fun more => ?_)
    cases more with
    | false => simp [mapLoop]
    | true =>
      show ((mapLoop item).member known >>= (mapLoop item).run steps false) = _
      rw [funext (ih false)]
      simp [mapLoop]

variable {item} {tree : α → Tree} (h : ∀ a, Understands item (tree a) a) (style : Style)
  (depth : Nat)

include h

/-- Entry by entry, the loop takes a map. -/
theorem mapLoop_goes (entries known : List (String × α)) :
    (mapLoop item).Goes ((entries.map fun e => (e.1, tree e.2)).map (entryBytes style depth)) known
      (known ++ entries) := by
  induction entries generalizing known with
  | nil =>
    rw [List.append_nil]
    exact .nil
  | cons e rest ih =>
    rw [List.append_cons]
    refine .cons (entryBytes_start style depth (e.1, tree e.2)) ?_ (ih (known ++ [e]))
    exact .of_bind (text_delimits "a string" e.1)
      (colon_takes ((h e.2).bind_pure fun a => known ++ [(e.1, a)]) style depth)

/-- The closing brace delimits a map. -/
theorem map_delimits (entries : List (String × α)) : Delimits EndsEarly (Reader.map item)
    ((Tree.object (entries.map fun e => (e.1, tree e.2))).bytes style depth) entries := by
  have inside := Loop.delimits style depth (mapLoop_goes h style (depth + 1) entries [])
    ((objectEnd_delimits blank_nil).map fun _ => entries)
  simp only [mapLoop_run, List.nil_append] at inside
  rw [bytes_object]
  exact value_delimits (by decide) inside

/-- **A map is understood if its values are.** -/
theorem map_understands (entries : List (String × α)) :
    Understands (Reader.map item) (.object (entries.map fun e => (e.1, tree e.2))) entries where
  skips := skipsBlanks_value _
  takes style depth := takes_of_delimits (map_delimits h style depth entries)

end Maps

/-! ## Records -/

/-- **Fields are collected** one after the other, from `c` on: each is a field of the record that
has not been given yet, and its value is understood. -/
inductive Collects (r : Reader.Record σ α) : List (String × Tree) → σ → σ → Prop
  | nil {c : σ} : Collects r [] c c
  | cons {e : String × Tree} {rest : List (String × Tree)} {c c' c'' : σ} {f : Reader.Field σ} :
      r.fields.find? (·.name = e.1) = some f → f.given c = false →
      Understands (f.read c) e.2 c' → Collects r rest c' c'' → Collects r (e :: rest) c c''

/-- Fields are collected in two goes as in one. -/
theorem Collects.append {r : Reader.Record σ α} {front rest : List (String × Tree)}
    {c c' c'' : σ} (h : Collects r front c c') (h' : Collects r rest c' c'') :
    Collects r (front ++ rest) c c'' := by
  induction h with
  | nil => exact h'
  | cons found fresh value _ ih => exact .cons found fresh value (ih h')

/-- A field that may be left out is collected if it is kept. -/
theorem Collects.optional {r : Reader.Record σ α} {e : String × Tree} {c c' : σ}
    (h : Collects r [e] c c') (kept : Bool) :
    Collects r (if kept then [e] else []) c (if kept then c' else c) := by
  cases kept with
  | false => exact .nil
  | true => exact h

section Records

variable (r : Reader.Record σ α)

/-- The loop that reads a record. -/
def recordLoop : Loop σ α where
  frame := .object
  member c := do
    let key ← Reader.text "a string"
    match r.fields.find? (·.name = key) with
    | some f =>
      if f.given c then throw (.repeatedField key)
      Reader.colon
      f.read c
    | none =>
      Reader.colon
      skipValue
      return c
  finish c := do
    let a ← r.complete c
    Reader.objectEnd
    return a

/-- The loop reads what the reader of records does, and completes it. -/
theorem recordLoop_run (steps : Nat) (first : Bool) (c : σ) :
    (recordLoop r).run steps first c = (do
      let a ← r.complete (← r.fieldsFrom steps first c)
      Reader.objectEnd
      return a) := by
  induction steps generalizing first c with
  | zero => rfl
  | succ steps ih =>
    rw [Loop.run, Reader.Record.fieldsFrom, bind_assoc]
    refine congrArg _ (funext fun more => ?_)
    cases more with
    | false => simp [recordLoop]
    | true =>
      show ((recordLoop r).member c >>= (recordLoop r).run steps false) = _
      rw [funext (ih false), if_pos rfl, bind_assoc, recordLoop, bind_assoc]
      refine congrArg _ (funext fun key => ?_)
      cases r.fields.find? (·.name = key) with
      | none => simp
      | some f => by_cases given : f.given c <;> simp [given]

variable {r} {trees : List (String × Tree)} {c c' : σ} (style : Style) (depth : Nat)

/-- Field by field, the loop takes a record. -/
theorem recordLoop_goes (h : Collects r trees c c') :
    (recordLoop r).Goes (trees.map (entryBytes style depth)) c c' := by
  induction h with
  | nil => exact .nil
  | @cons e _ _ _ _ f found fresh value _ ih =>
    refine .cons (entryBytes_start style depth e) (.of_bind (text_delimits "a string" e.1) ?_) ih
    simp only [found, fresh]
    exact colon_takes value style depth

/-- The closing brace delimits a record. -/
theorem record_delimits (h : Collects r trees r.start c) {a : α} (complete : r.complete c = .ok a) :
    Delimits EndsEarly r.read ((Tree.object trees).bytes style depth) a := by
  have finish : Delimits EndsEarly ((recordLoop r).finish c) [byte '\x7d'] a := by
    show Delimits EndsEarly (do
      let a ← r.complete c
      Reader.objectEnd
      return a : Reader α) _ _
    rw [complete]
    exact (objectEnd_delimits blank_nil).map fun _ => a
  have inside := Loop.delimits style depth (recordLoop_goes style (depth + 1) h) finish
  simp only [recordLoop_run] at inside
  rw [bytes_object]
  exact value_delimits (by decide) inside

/-- **A record is understood if its fields are**, and are all that it needs. -/
theorem record_understands (h : Collects r trees r.start c) {a : α}
    (complete : r.complete c = .ok a) : Understands r.read (.object trees) a where
  skips := skipsBlanks_value _
  takes style depth := takes_of_delimits (record_delimits style depth h complete)

end Records

/-! ## Variants -/

section Variants

variable {named : List (String × Reader α)} {name : String} {r : Reader α} {t : Tree} {a : α}

/-- The name of a variant that is known is read as a text is. -/
theorem variantName_delimits {known : List String} (mem : name ∈ known) :
    Delimits EndsEarly (Reader.variantName known) (Utf8.encode (writeString name)) name := by
  refine (text_delimits "variant identifier" name).bind_nil ?_
  rw [if_pos (List.contains_iff_mem.2 mem)]
  exact .pure name

/-- The closing brace delimits a variant. -/
theorem payloadVariant_delimits (style : Style) (depth : Nat)
    (found : named.find? (·.1 = name) = some (name, r)) (h : Understands r t a) :
    Delimits EndsEarly (Reader.payloadVariant named)
      ((Tree.object [(name, t)]).bytes style depth) a := by
  have mem : name ∈ named.map (·.1) := List.mem_map.2 ⟨_, List.mem_of_find?_eq_some found, rfl⟩
  obtain ⟨b, s, start, quote⟩ := entryBytes_start style (depth + 1) (name, t)
  have closed := (h.takes_append style.blank_pad style (depth + 1)).bind
    (f := fun a => Reader.objectEnd >>= fun _ => pure a)
    ((objectEnd_delimits (style.blank_gap depth)).map fun _ => a)
    (Frame.object.ends_behind style depth []) fun a' => ⟨_, endsEarly_unfinished .object, rfl⟩
  rw [bytes_object]
  refine value_delimits (by decide) ((variantKey_looksPast (style.blank_gap (depth + 1))).bind
    ⟨b, _, by rw [List.map_nil, start, List.cons_append], quote⟩ ?_)
  rw [entryBytes, List.append_assoc]
  refine (variantName_delimits mem).bind ?_
  simp only [found]
  exact colon_delimits.bind closed

/-- **A variant is understood if what comes with its name is.** -/
theorem payloadVariant_understands (found : named.find? (·.1 = name) = some (name, r))
    (h : Understands r t a) :
    Understands (Reader.payloadVariant named) (.object [(name, t)]) a where
  skips := skipsBlanks_value _
  takes style depth := takes_of_delimits (payloadVariant_delimits style depth found h)

end Variants

/-! ## Whole texts -/

section Whole

variable {r : Reader α} {w : List UInt8} {a : α} (h : Delimits EndsEarly r w a)

include h

/-- A whole text that is delimited is read. -/
theorem all_of_delimits : Reader.all r w = .ok a := by
  have read := h.whole []
  rw [List.append_nil] at read
  rw [Reader.all, read]
  rfl

/-- A text that is cut short fails early: a part of what is delimited is missing. -/
theorem all_of_front {p : List UInt8} (front : p <+: w) (ne : p ≠ w) :
    ∃ e, EndsEarly e ∧ Reader.all r p = .error e := by
  obtain ⟨e, he, fails⟩ := h.runsShort_of_front front ne
  exact ⟨e, he, by rw [Reader.all, fails]⟩

end Whole

end PropertyGraph.Json
