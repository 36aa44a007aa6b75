/-!
# Finite maps with text keys

A `Table` lists its entries in strictly ascending order of key, so two tables with the same
look-ups are the same table (`Table.ext_get?`): the order in which entries arrived leaves no
trace. Keys compare by code point, which is also the order of their UTF-8 bytes.

Each operation is pinned down by what it does to look-ups: `get?_insert`, `get?_erase`,
`get?_adjust`.
-/

namespace PropertyGraph

variable {α β : Type}

/-- A finite map from texts, with its entries in strictly ascending order of key. -/
structure Table (α : Type) where
  /-- The entries, by ascending key. -/
  toList : List (String × α)
  /-- Keys ascend strictly, so none repeats. -/
  ascending : toList.Pairwise (fun a b => a.1 < b.1)
  deriving DecidableEq

namespace Table

/-! ## Entries in ascending order -/

/-- Places an entry in an ascending list; an entry with the same key is replaced. -/
def place (k : String) (v : α) : List (String × α) → List (String × α)
  | [] => [(k, v)]
  | e :: rest =>
    if k < e.1 then (k, v) :: e :: rest
    else if k = e.1 then (k, v) :: rest
    else e :: place k v rest

/-- Placing an entry brings in no other one. -/
theorem mem_place {k : String} {v : α} {e : String × α} {l : List (String × α)}
    (h : e ∈ place k v l) : e = (k, v) ∨ e ∈ l := by
  induction l with
  | nil => simpa [place] using h
  | cons a rest ih =>
    rw [place] at h
    split at h
    · simpa using h
    · split at h
      · rcases List.mem_cons.1 h with h | h
        · exact .inl h
        · exact .inr (List.mem_cons_of_mem _ h)
      · rcases List.mem_cons.1 h with h | h
        · exact .inr (h ▸ List.mem_cons_self)
        · exact (ih h).imp id (List.mem_cons_of_mem _)

/-- Placing an entry keeps the keys in strictly ascending order. -/
theorem ascending_place {k : String} {v : α} {l : List (String × α)}
    (h : l.Pairwise (fun a b => a.1 < b.1)) :
    (place k v l).Pairwise (fun a b => a.1 < b.1) := by
  induction l with
  | nil => simp [place]
  | cons a rest ih =>
    obtain ⟨head, tail⟩ := List.pairwise_cons.1 h
    rw [place]
    split
    next lt =>
      refine List.pairwise_cons.2 ⟨fun e he => ?_, h⟩
      rcases List.mem_cons.1 he with rfl | he
      · exact lt
      · exact String.lt_trans lt (head e he)
    next nlt =>
      split
      next eq => exact List.pairwise_cons.2 ⟨fun e he => by rw [eq]; exact head e he, tail⟩
      next ne =>
        refine List.pairwise_cons.2 ⟨fun e he => ?_, ih tail⟩
        rcases mem_place he with rfl | he
        · exact Std.lt_of_le_of_ne (String.not_lt.1 nlt) (Ne.symm ne)
        · exact head e he

/-- The value of the first entry with a key. -/
def find? (k : String) : List (String × α) → Option α
  | [] => none
  | e :: rest => if k = e.1 then some e.2 else find? k rest

/-! ## Operations -/

/-- The table with no entry. -/
def empty : Table α := ⟨[], .nil⟩

instance : EmptyCollection (Table α) := ⟨empty⟩
instance : Inhabited (Table α) := ⟨empty⟩

/-- The value under a key, if there is one. -/
def get? (t : Table α) (k : String) : Option α := find? k t.toList

/-- Whether a key has a value. -/
def contains (t : Table α) (k : String) : Bool := (t.get? k).isSome

/-- Puts a value under a key, in place of any value it had. -/
def insert (t : Table α) (k : String) (v : α) : Table α :=
  ⟨place k v t.toList, ascending_place t.ascending⟩

/-- Drops a key with its value. -/
def erase (t : Table α) (k : String) : Table α :=
  ⟨t.toList.filter (·.1 ≠ k), t.ascending.filter _⟩

/-- Changes the value under a key, if there is one. -/
def adjust (t : Table α) (k : String) (f : α → α) : Table α :=
  ⟨t.toList.map (fun e => (e.1, if e.1 = k then f e.2 else e.2)),
    List.pairwise_map.2 t.ascending⟩

/-- The entries that a test accepts. -/
def filter (t : Table α) (keep : String → α → Bool) : Table α :=
  ⟨t.toList.filter (fun e => keep e.1 e.2), t.ascending.filter _⟩

/-- The same keys with each value changed. -/
def map (t : Table α) (f : α → β) : Table β :=
  ⟨t.toList.map (fun e => (e.1, f e.2)), List.pairwise_map.2 t.ascending⟩

/-- Collects entries; of several with one key the last counts. -/
def ofList (entries : List (String × α)) : Table α :=
  entries.foldl (fun t e => t.insert e.1 e.2) empty

/-- The keys, ascending. -/
def keys (t : Table α) : List String := t.toList.map (·.1)

/-- The values, by ascending key. -/
def values (t : Table α) : List α := t.toList.map (·.2)

/-- The number of entries. -/
def size (t : Table α) : Nat := t.toList.length

/-- Whether there is no entry. -/
def isEmpty (t : Table α) : Bool := t.toList.isEmpty

/-! ## Look-ups -/

/-- What is placed is found under its key, and under every other key what was there. -/
theorem find?_place (k k' : String) (v : α) (l : List (String × α)) :
    find? k' (place k v l) = if k' = k then some v else find? k' l := by
  induction l with
  | nil => rfl
  | cons a rest ih =>
    rw [place]
    split
    · rfl
    · split
      next eq => subst eq; simp only [find?]; split <;> rfl
      next ne =>
        simp only [find?, ih]
        by_cases h : k' = a.1
        · have other : k' ≠ k := fun eq => ne (eq ▸ h)
          rw [if_pos h, if_neg other, if_pos h]
        · simp [h]

/-- What is found stands in the list. -/
theorem mem_of_find? {l : List (String × α)} {k : String} {v : α}
    (h : find? k l = some v) : (k, v) ∈ l := by
  induction l with
  | nil => simp [find?] at h
  | cons a rest ih =>
    rw [find?] at h
    split at h
    next eq => obtain rfl := Option.some.inj h; exact eq ▸ List.mem_cons_self
    next => exact List.mem_cons_of_mem _ (ih h)

@[simp] theorem get?_empty (k : String) : (empty : Table α).get? k = none := rfl

/-- Insertion changes the look-up of its own key and of no other. -/
theorem get?_insert (t : Table α) (k k' : String) (v : α) :
    (t.insert k v).get? k' = if k' = k then some v else t.get? k' :=
  find?_place k k' v t.toList

/-- So does erasure. -/
theorem get?_erase (t : Table α) (k k' : String) :
    (t.erase k).get? k' = if k' = k then none else t.get? k' := by
  obtain ⟨l, asc⟩ := t
  show find? k' (l.filter (·.1 ≠ k)) = if k' = k then none else find? k' l
  clear asc
  induction l with
  | nil => simp [find?]
  | cons a rest ih =>
    by_cases h : a.1 = k
    · rw [List.filter_cons_of_neg (by simp [h]), ih, find?]
      by_cases h' : k' = k <;> simp_all
    · rw [List.filter_cons_of_pos (by simp [h]), find?, find?, ih]
      by_cases h' : k' = a.1 <;> simp_all

/-- So does a change of the value under a key, which makes no entry where there was none. -/
theorem get?_adjust (t : Table α) (k k' : String) (f : α → α) :
    (t.adjust k f).get? k' = if k' = k then (t.get? k').map f else t.get? k' := by
  obtain ⟨l, asc⟩ := t
  show find? k' (l.map _) = if k' = k then (find? k' l).map f else find? k' l
  clear asc
  induction l with
  | nil => simp [find?]
  | cons a rest ih =>
    simp only [List.map_cons, find?, ih]
    by_cases h' : k' = a.1 <;> by_cases h : k' = k <;> simp_all

/-- The entries are what look-ups find: with ascending keys none of them hides another. -/
theorem mem_toList_iff {t : Table α} {k : String} {v : α} :
    (k, v) ∈ t.toList ↔ t.get? k = some v := by
  obtain ⟨l, asc⟩ := t
  refine ⟨fun h => ?_, mem_of_find?⟩
  show find? k l = some v
  replace h : (k, v) ∈ l := h
  induction l with
  | nil => simp at h
  | cons a rest ih =>
    obtain ⟨head, tail⟩ := List.pairwise_cons.1 asc
    rw [find?]
    rcases List.mem_cons.1 h with rfl | h
    · simp
    · have ne : k ≠ a.1 := fun eq => String.lt_irrefl k (by simpa [eq] using head _ h)
      rw [if_neg ne, ih tail h]

/-- **Look-ups decide a table.** Two tables that answer every key alike are one table. -/
theorem ext_get? {s t : Table α} (h : ∀ k, s.get? k = t.get? k) : s = t := by
  have mem : ∀ e, e ∈ s.toList ↔ e ∈ t.toList := fun e => by
    rw [show e = (e.1, e.2) from rfl, mem_toList_iff, mem_toList_iff, h]
  obtain ⟨l, hl⟩ := s
  obtain ⟨m, hm⟩ := t
  replace mem : ∀ e, e ∈ l ↔ e ∈ m := mem
  have eq : l = m := by
    clear h
    induction l generalizing m with
    | nil =>
      cases m with
      | nil => rfl
      | cons b m => exact absurd ((mem b).2 List.mem_cons_self) (by simp)
    | cons a l ih =>
      cases m with
      | nil => exact absurd ((mem a).1 List.mem_cons_self) (by simp)
      | cons b m =>
        obtain ⟨headA, tailA⟩ := List.pairwise_cons.1 hl
        obtain ⟨headB, tailB⟩ := List.pairwise_cons.1 hm
        have ab : a = b := by
          rcases List.mem_cons.1 ((mem a).1 List.mem_cons_self) with h | h
          · exact h
          · rcases List.mem_cons.1 ((mem b).2 List.mem_cons_self) with h' | h'
            · exact h'.symm
            · exact absurd (headA b h') (String.lt_asymm (headB a h))
        subst ab
        have rest : ∀ e, e ∈ l ↔ e ∈ m := fun e => by
          constructor
          · intro he
            rcases List.mem_cons.1 ((mem e).1 (List.mem_cons_of_mem _ he)) with h | h
            · exact absurd (headA e he) (h ▸ String.lt_irrefl _)
            · exact h
          · intro he
            rcases List.mem_cons.1 ((mem e).2 (List.mem_cons_of_mem _ he)) with h | h
            · exact absurd (headB e he) (h ▸ String.lt_irrefl _)
            · exact h
        rw [ih tailA m tailB rest]
  subst eq
  rfl

/-- Dropping a key without a value changes nothing. -/
theorem erase_of_get?_eq_none {t : Table α} {k : String} (h : t.get? k = none) :
    t.erase k = t := by
  refine ext_get? fun k' => ?_
  rw [get?_erase]
  split
  next eq => rw [eq, h]
  next => rfl

/-- A key that is put in and dropped again leaves no trace if there was nothing under it. -/
theorem erase_insert {t : Table α} {k : String} (v : α) (h : t.get? k = none) :
    (t.insert k v).erase k = t := by
  refine ext_get? fun k' => ?_
  rw [get?_erase, get?_insert]
  split
  next eq => rw [eq, h]
  next => rfl

/-- Nor does one that is dropped and put back with the value it had. -/
theorem insert_erase {t : Table α} {k : String} {v : α} (h : t.get? k = some v) :
    (t.erase k).insert k v = t := by
  refine ext_get? fun k' => ?_
  rw [get?_insert, get?_erase]
  split
  next eq => rw [eq, h]
  next => rfl

/-! ## Keys and values -/

theorem contains_iff {t : Table α} {k : String} : t.contains k ↔ ∃ v, t.get? k = some v :=
  Option.isSome_iff_exists

theorem contains_eq_false_iff {t : Table α} {k : String} :
    t.contains k = false ↔ t.get? k = none := by
  rw [contains, Option.isSome_eq_false_iff, Option.isNone_iff_eq_none]

/-- The keys are those with a value. -/
theorem mem_keys_iff {t : Table α} {k : String} : k ∈ t.keys ↔ ∃ v, t.get? k = some v := by
  unfold keys
  simp only [List.mem_map, Prod.exists, exists_and_right, exists_eq_right, mem_toList_iff]

/-- The values are those under some key. -/
theorem mem_values_iff {t : Table α} {v : α} : v ∈ t.values ↔ ∃ k, t.get? k = some v := by
  unfold values
  simp only [List.mem_map, Prod.exists, exists_eq_right, mem_toList_iff]

/-- Going through the keys is going through the values. -/
theorem map_keys_eq_map_values {t : Table α} {f : String → β} {g : α → β}
    (agree : ∀ {k v}, t.get? k = some v → f k = g v) : t.keys.map f = t.values.map g := by
  unfold keys values
  rw [List.map_map, List.map_map]
  exact List.map_congr_left fun e he => agree (mem_toList_iff.1 he)

/-- What is filed under its own name, in order of name. -/
theorem map_values {t : Table α} {name : α → String}
    (own : ∀ {k v}, t.get? k = some v → name v = k) : t.values.map name = t.keys := by
  have same : t.keys.map id = t.values.map name :=
    map_keys_eq_map_values fun found => (own found).symm
  rw [← same, List.map_id]

/-- Going through values filed under their own names for one of a name is looking it up. -/
theorem mem_values_and_iff {t : Table α} {name : α → String}
    (own : ∀ {k v}, t.get? k = some v → name v = k) {k : String} {v : α} :
    v ∈ t.values ∧ name v = k ↔ t.get? k = some v := by
  rw [mem_values_iff]
  constructor
  · rintro ⟨⟨k', hv⟩, rfl⟩
    rwa [own hv]
  · exact fun hv => ⟨⟨k, hv⟩, own hv⟩

/-- Insertion adds its key. -/
theorem mem_keys_insert {t : Table α} {k k' : String} {v : α} :
    k' ∈ (t.insert k v).keys ↔ k' = k ∨ k' ∈ t.keys := by
  rw [mem_keys_iff, mem_keys_iff, get?_insert]
  split <;> simp_all

/-- Erasure takes its key away. -/
theorem mem_keys_erase {t : Table α} {k k' : String} :
    k' ∈ (t.erase k).keys ↔ k' ≠ k ∧ k' ∈ t.keys := by
  rw [mem_keys_iff, mem_keys_iff, get?_erase]
  split <;> simp_all

@[simp] theorem keys_empty : (empty : Table α).keys = [] := rfl

/-- Keys are listed in strictly ascending order. -/
theorem keys_ascending (t : Table α) : t.keys.Pairwise (· < ·) :=
  List.pairwise_map.2 t.ascending

/-- No key is listed twice. -/
theorem nodup_keys (t : Table α) : t.keys.Nodup :=
  t.keys_ascending.imp fun lt => String.ne_of_lt lt

@[simp] theorem length_keys (t : Table α) : t.keys.length = t.size := List.length_map _

@[simp] theorem length_values (t : Table α) : t.values.length = t.size := List.length_map _

/-- A table without entries has no key. -/
theorem size_eq_zero_iff {t : Table α} : t.size = 0 ↔ ∀ k, k ∉ t.keys := by
  rw [size, List.length_eq_zero_iff, ← List.map_eq_nil_iff, ← keys,
    List.eq_nil_iff_forall_not_mem]

theorem isEmpty_iff_size {t : Table α} : t.isEmpty ↔ t.size = 0 :=
  List.isEmpty_iff_length_eq_zero

/-- Without entries there is one table only. -/
theorem eq_empty_of_size_eq_zero {t : Table α} (h : t.size = 0) : t = .empty := by
  refine ext_get? fun k => ?_
  rw [get?_empty, ← contains_eq_false_iff, Bool.eq_false_iff, ne_eq, contains_iff, ← mem_keys_iff]
  exact size_eq_zero_iff.1 h k

/-- Changing all values changes what look-ups find. -/
theorem get?_map (t : Table α) (f : α → β) (k : String) :
    (t.map f).get? k = (t.get? k).map f := by
  obtain ⟨l, asc⟩ := t
  show find? k (l.map _) = (find? k l).map f
  clear asc
  induction l with
  | nil => rfl
  | cons a rest ih =>
    rw [List.map_cons, find?, find?, ih]
    split <;> rfl

/-- A test is put to what a look-up finds. -/
theorem get?_filter (t : Table α) (keep : String → α → Bool) (k : String) :
    (t.filter keep).get? k = (t.get? k).filter (keep k) := by
  refine Option.ext fun v => ?_
  rw [← mem_toList_iff, Option.filter_eq_some_iff, ← mem_toList_iff]
  exact List.mem_filter

/-- Where a test looks at values alone, the values that stay are those that pass it. -/
theorem values_filter (t : Table α) (keep : α → Bool) :
    (t.filter fun _ v => keep v).values = t.values.filter keep :=
  List.filter_map.symm

/-- Of what is filed under its own name, the names that a test leaves. -/
theorem map_filter_values {t : Table α} {name : α → String} {keep : α → Bool}
    (own : ∀ {k v}, t.get? k = some v → name v = k) :
    (t.values.filter keep).map name = (t.filter fun _ v => keep v).keys := by
  rw [← values_filter]
  refine map_values fun found => own ?_
  rw [get?_filter, Option.filter_eq_some_iff] at found
  exact found.1

/-- The keys that a test of keys leaves. -/
theorem mem_keys_filter_iff {t : Table α} {keep : String → Bool} {k : String} :
    k ∈ (t.filter fun k _ => keep k).keys ↔ k ∈ t.keys ∧ keep k := by
  rw [mem_keys_iff, mem_keys_iff, get?_filter]
  cases t.get? k <;> cases keep k <;> simp

/-- Two tests after one another are one test. -/
theorem filter_filter (t : Table α) (p q : String → α → Bool) :
    (t.filter p).filter q = t.filter fun k v => p k v && q k v := by
  refine ext_get? fun k => ?_
  rw [get?_filter, get?_filter, get?_filter, Option.filter_filter]

theorem filter_true (t : Table α) : (t.filter fun _ _ => true) = t := by
  refine ext_get? fun k => ?_
  rw [get?_filter]
  cases t.get? k <;> rfl

/-- Nothing is left exactly if the test drops every key. -/
theorem filter_eq_empty_iff {t : Table α} {keep : String → Bool} :
    (t.filter fun k _ => keep k) = .empty ↔ ∀ k ∈ t.keys, keep k = false := by
  constructor
  · intro empty k mem
    refine Bool.eq_false_iff.2 fun kept => ?_
    have stays := mem_keys_filter_iff.2 ⟨mem, kept⟩
    rw [empty] at stays
    exact List.not_mem_nil stays
  · intro dropped
    refine eq_empty_of_size_eq_zero (size_eq_zero_iff.2 fun k mem => ?_)
    obtain ⟨there, kept⟩ := mem_keys_filter_iff.1 mem
    exact Bool.false_ne_true ((dropped k there).symm.trans kept)

/-- Dropping a key is a filter. -/
theorem filter_ne_eq_erase (t : Table α) (k : String) :
    (t.filter fun k' _ => !decide (k' = k)) = t.erase k := by
  refine ext_get? fun k' => ?_
  rw [get?_filter, get?_erase]
  cases t.get? k' <;> simp [Option.filter]

@[simp] theorem contains_map (t : Table α) (f : α → β) (k : String) :
    (t.map f).contains k = t.contains k := by
  rw [contains, get?_map, Option.isSome_map, contains]

@[simp] theorem size_map (t : Table α) (f : α → β) : (t.map f).size = t.size := List.length_map _

@[simp] theorem keys_map (t : Table α) (f : α → β) : (t.map f).keys = t.keys :=
  List.map_map

/-- Values that are changed and then changed back. -/
theorem map_toList_map {t : Table α} {f : α → β} {g : String × β → α}
    (back : ∀ {k v}, t.get? k = some v → g (k, f v) = v) : (t.map f).toList.map g = t.values := by
  unfold map values
  rw [List.map_map]
  exact List.map_congr_left fun e he => back (mem_toList_iff.1 he)

/-- Values are changed where they stand. -/
theorem values_map (t : Table α) (f : α → β) : (t.map f).values = t.values.map f := by
  unfold map values
  rw [List.map_map, List.map_map]
  rfl

/-- Changing all values goes together with insertion. -/
theorem map_insert (t : Table α) (k : String) (v : α) (f : α → β) :
    (t.insert k v).map f = (t.map f).insert k (f v) := by
  refine ext_get? fun k' => ?_
  rw [get?_map, get?_insert, get?_insert, get?_map]
  split <;> rfl

/-- And with erasure. -/
theorem map_erase (t : Table α) (k : String) (f : α → β) :
    (t.erase k).map f = (t.map f).erase k := by
  refine ext_get? fun k' => ?_
  rw [get?_map, get?_erase, get?_erase, get?_map]
  split <;> rfl

/-! ## Collecting entries -/

/-- The front of a list is searched first. -/
theorem find?_append (k : String) (l m : List (String × α)) :
    find? k (l ++ m) = (find? k l).or (find? k m) := by
  induction l with
  | nil => rfl
  | cons a rest ih =>
    rw [List.cons_append, find?, find?, ih]
    split <;> rfl

/-- Nothing is found exactly if no entry has the key. -/
theorem find?_eq_none_iff {k : String} {l : List (String × α)} :
    find? k l = none ↔ ∀ v, (k, v) ∉ l := by
  induction l with
  | nil => simp [find?]
  | cons a rest ih =>
    obtain ⟨key, value⟩ := a
    rw [find?]
    by_cases h : k = key
    · subst h
      simp only [if_true, reduceCtorEq, List.mem_cons, not_or, false_iff]
      exact fun none => (none value).1 rfl
    · simp [h, ih]

/-- Of several entries with one key the last one is collected. -/
theorem get?_ofList (l : List (String × α)) (k : String) :
    (ofList l).get? k = find? k l.reverse := by
  have general : ∀ t : Table α,
      (l.foldl (fun t e => t.insert e.1 e.2) t).get? k = (find? k l.reverse).or (t.get? k) := by
    induction l with
    | nil => simp [find?]
    | cons a rest ih =>
      intro t
      rw [List.foldl_cons, ih, get?_insert, List.reverse_cons, find?_append, Option.or_assoc]
      congr 1
      rw [find?]
      split <;> rfl
  rw [ofList, general, get?_empty, Option.or_none]

/-- Collecting the entries of a table gives the table back. -/
@[simp] theorem ofList_toList (t : Table α) : ofList t.toList = t := by
  refine ext_get? fun k => ?_
  rw [get?_ofList]
  cases found : find? k t.toList.reverse with
  | some v => exact (mem_toList_iff.1 (List.mem_reverse.1 (mem_of_find? found))).symm
  | none =>
    refine (Option.eq_none_iff_forall_ne_some.2 fun v h => ?_).symm
    exact find?_eq_none_iff.1 found v (List.mem_reverse.2 (mem_toList_iff.2 h))

/-- Every key of a list is collected. -/
theorem mem_keys_ofList {l : List (String × α)} {k : String} :
    k ∈ (ofList l).keys ↔ ∃ v, (k, v) ∈ l := by
  rw [mem_keys_iff, get?_ofList, ← Option.ne_none_iff_exists', ne_eq, find?_eq_none_iff]
  simp

end Table

/-- A set of texts, kept in ascending order. -/
abbrev TextSet := Table Unit

namespace TextSet

/-- The set that holds the listed texts. -/
def ofTexts (texts : List String) : TextSet := Table.ofList (texts.map (·, ()))

/-- The members, ascending. -/
abbrev members (s : TextSet) : List String := s.keys

/-- Adds a member; a text that is one already changes nothing. -/
abbrev add (s : TextSet) (text : String) : TextSet := s.insert text ()

/-- **Members decide a set.** -/
theorem ext_members {s t : TextSet} (h : ∀ x, x ∈ s.members ↔ x ∈ t.members) : s = t := by
  refine Table.ext_get? fun x => ?_
  have iff := h x
  rw [Table.mem_keys_iff, Table.mem_keys_iff] at iff
  cases hs : s.get? x <;> cases ht : t.get? x <;> simp_all

/-- A text is a member exactly if it is listed. -/
theorem mem_members_ofTexts {texts : List String} {x : String} :
    x ∈ (ofTexts texts).members ↔ x ∈ texts := by
  rw [ofTexts, Table.mem_keys_ofList]
  simp

/-- Texts that ascend already are the members of their set in the same order. -/
theorem members_ofTexts {texts : List String} (h : texts.Pairwise (· < ·)) :
    (ofTexts texts).members = texts := by
  have asc : (texts.map fun x => (x, ())).Pairwise fun a b => a.1 < b.1 := List.pairwise_map.2 h
  show ((Table.ofList (texts.map fun x => (x, ()))).toList.map (·.1)) = texts
  rw [show Table.ofList (texts.map fun x => (x, ())) = ⟨_, asc⟩ from Table.ofList_toList ⟨_, asc⟩,
    List.map_map]
  exact List.map_id texts

end TextSet

end PropertyGraph
