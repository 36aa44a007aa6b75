import Mathlib.Data.List.Perm.Basic
import Mathlib.Logic.Relation
import PropertyGraph.Proofs.Query.Drafts

/-!
# Spelling a query otherwise

The plan of a query depends on what its tokens mean and on nothing else: not on the blanks between
them, and not on which of the ways is taken to spell a keyword, a truth value, a name, a string or a
number, nor on the order of the entries of a property map.

Blanks are left open by a draft, so that all the texts of a draft have one statement but for where
literals are (`Draft.LaidOut.denotes`). An edit changes the statement where that does not change
what it means (`Draft.Edited.means`). `Plan.read_edited` is the result for texts.
-/

namespace PropertyGraph.Query

/-! ## Where literals are -/

/-- Where the parts of a pattern stand has no part in what it means. -/
theorem PatternText.means_unplaced {w : PatternText} {q : Pattern} :
    w.unplaced.Means q ↔ w.Means q := by
  simp only [means_iff, unplaced, List.forall₂_map_left_iff]
  rfl

/-- A statement means the same wherever its literals are. -/
theorem Statement.means_unplaced {s : Statement} {p : Plan} : s.unplaced.Means p ↔ s.Means p := by
  have patterns : ∀ qs, List.Forall₂ PatternText.Means s.unplaced.patterns qs ↔
      List.Forall₂ PatternText.Means s.patterns qs := fun qs => by
    simp only [unplaced, List.forall₂_map_left_iff, PatternText.means_unplaced]
  constructor
  · rintro ⟨⟨qs, eq, means⟩, returns⟩
    exact ⟨⟨qs, eq, (patterns qs).1 means⟩, returns⟩
  · rintro ⟨⟨qs, eq, means⟩, returns⟩
    exact ⟨⟨qs, eq, (patterns qs).2 means⟩, returns⟩

/-- A text of a draft stands for what the draft means. -/
theorem Draft.LaidOut.stands_iff {d : Draft} {t : List Char} {p : Plan} (h : d.LaidOut t) :
    Stands t p ↔ d.statement.Means p := by
  obtain ⟨s, denotes, eq⟩ := h.denotes
  rw [← eq, Statement.means_unplaced]
  constructor
  · rintro ⟨s', denotes', means⟩
    exact denotes'.unique denotes ▸ means
  · exact fun means => ⟨s, denotes, means⟩

/-! ## One member changed -/

section AtOne

variable {α β γ : Type} {change : α → α → Prop} {as bs : List α}

/-- A change at one place does not show in what it keeps there. -/
theorem AtOne.map_eq {f : α → β} (h : AtOne change as bs)
    (kept : ∀ a b, change a b → f a = f b) : as.map f = bs.map f := by
  induction h with
  | here one => rw [List.map_cons, List.map_cons, kept _ _ one]
  | there _ ih => rw [List.map_cons, List.map_cons, ih]

/-- If a change keeps what a member stands for, so does a change of one member. -/
theorem AtOne.forall₂ {R : α → γ → Prop} {cs : List γ} (h : AtOne change as bs)
    (kept : ∀ a b c, change a b → R a c → R b c) (both : List.Forall₂ R as cs) :
    List.Forall₂ R bs cs := by
  induction h generalizing cs with
  | here one =>
    obtain _ | ⟨first, others⟩ := both
    exact .cons (kept _ _ _ one first) others
  | there _ ih =>
    obtain _ | ⟨first, others⟩ := both
    exact .cons first (ih others)

end AtOne

/-! ## Edits keep what is meant -/

/-- A name is the same with and without quotes. -/
theorem NameDraft.Edited.chars_eq {l l' : NameDraft} (h : l.Edited l') : l.chars = l'.chars := by
  cases h <;> rfl

/-- A literal that is spelled differently means the same value. -/
theorem LiteralDraft.Edited.means {l l' : LiteralDraft} {v : Value} (h : l.Edited l')
    (means : l.literal.Means v) : l'.literal.Means v := by
  cases h with
  | quotes => exact means
  | cases => exact means
  | @zeros minus digits some all n =>
    obtain _ | _ | value := means
    refine .integer (value.trans ?_)
    rw [denoted, denoted, Decimal.ofDigits_replicate_zero_append]

/-- An entry keeps its key and the value that it asks for. -/
theorem EntryDraft.Edited.means {e e' : EntryDraft} {held : String × Value} (h : e.Edited e')
    (means : e.entry.Means held) : e'.entry.Means held := by
  cases h with
  | key edited => exact ⟨(congrArg String.ofList edited.chars_eq).symm.trans means.1, means.2⟩
  | literal edited => exact ⟨means.1, edited.means means.2⟩

/-- A draft means the patterns whose properties are what its entries mean, in some order. -/
theorem PatternDraft.means_iff {d : PatternDraft} {q : Pattern} : d.pattern.Means q ↔
    q.binds = String.ofList d.binds.1 ∧ q.labels = d.labels.map (fun l => String.ofList l.chars) ∧
      ∃ held, List.Forall₂ (fun e held => e.entry.Means held) (d.entries.getD []) held ∧
        held.Perm q.properties.toList := by
  simp only [PatternText.means_iff, pattern, List.forall₂_map_left_iff, List.map_map]
  rfl

/-- **An edit inside a pattern keeps its meaning.** The entries may have changed places, which
leaves the same properties. -/
theorem PatternDraft.Edited.means {d d' : PatternDraft} {q : Pattern} (h : d.Edited d')
    (means : d.pattern.Means q) : d'.pattern.Means q := by
  rw [PatternDraft.means_iff] at means ⊢
  obtain ⟨binds, labels, held, entries, perm⟩ := means
  cases h with
  | label edited =>
    refine ⟨binds, labels.trans ?_, held, entries, perm⟩
    exact edited.map_eq fun _ _ one => congrArg String.ofList one.chars_eq
  | entry edited =>
    exact ⟨binds, labels, held, edited.forall₂ (fun _ _ _ one => one.means) entries, perm⟩
  | order reordered =>
    obtain ⟨held', entries, perm'⟩ := List.perm_comp_forall₂ reordered.symm entries
    exact ⟨binds, labels, held', entries, perm'.trans perm⟩

theorem ClauseDraft.Edited.means {c c' : ClauseDraft} {q : Pattern} (h : c.Edited c')
    (means : c.pattern.pattern.Means q) : c'.pattern.pattern.Means q := by
  cases h with
  | keyword => exact means
  | pattern edited => exact edited.means means

/-- **An edit does not change what a query asks for.** -/
theorem Draft.Edited.means {d d' : Draft} {p : Plan} (h : d.Edited d')
    (means : d.statement.Means p) : d'.statement.Means p := by
  cases h with
  | clause edited =>
    obtain ⟨⟨qs, eq, patterns⟩, returns⟩ := means
    refine ⟨⟨qs, eq, ?_⟩, returns⟩
    simp only [statement, List.forall₂_map_left_iff] at patterns ⊢
    exact edited.forall₂ (fun _ _ _ one => one.means) patterns
  | keyword => exact means

/-- Any number of edits keeps the meaning, by induction on their sequence. -/
theorem Draft.means_of_edits {d d' : Draft} {p : Plan}
    (edits : Relation.ReflTransGen Draft.Edited d d') (means : d.statement.Means p) :
    d'.statement.Means p := by
  induction edits with
  | refl => exact means
  | tail _ edit ih => exact edit.means ih

/-! ## What is kept as it is -/

theorem PatternDraft.kept {d : PatternDraft} {q : Pattern} (h : d.pattern.Means q) : d.Kept q where
  binds := h.binds
  labels := (PatternDraft.means_iff.1 h).2.1
  keys k := by
    have written : k ∈ d.pattern.entries.map (fun e => String.ofList e.key) ↔
        ∃ e ∈ d.entries.getD [], String.ofList e.key.chars = k := by
      rw [pattern, List.map_map, List.mem_map]
      rfl
    rw [← written, Table.mem_keys_iff]
    constructor
    · rintro ⟨v, found⟩
      by_contra absent
      rw [h.only k absent] at found
      nomatch found
    · intro mem
      obtain ⟨e, he, rfl⟩ := List.mem_map.1 mem
      obtain ⟨v, -, found⟩ := h.held e he
      exact ⟨v, found⟩
  strings := by
    intro e he content eq
    obtain ⟨v, means, found⟩ := h.held e.entry (List.mem_map_of_mem he)
    have means : e.literal.literal.Means v := means
    rw [eq] at means
    cases means
    exact found

/-! ## Texts -/

/-- **The plan depends on what the tokens mean only.** Every text that is read as a plan is laid out
from a draft. From whichever draft one takes it to be laid out, each text that is laid out from the
draft with other blanks, and each that is laid out from the draft after any edits, is read as the
same plan. And what stands between quotes or backticks, blanks included, is in the plan as it
stands there. -/
theorem Plan.read_edited {text : String} {p : Plan} (ok : Plan.read text = .ok p) :
    (∃ d : Draft, d.LaidOut text.toList) ∧
    ∀ d : Draft, d.LaidOut text.toList →
      (∀ (d' : Draft) (text' : String), Relation.ReflTransGen Draft.Edited d d' →
        d'.LaidOut text'.toList → Plan.read text' = .ok p) ∧
      List.Forall₂ (fun c q => c.pattern.Kept q) d.clauses p.patterns := by
  obtain ⟨stands, valid⟩ := Plan.readChars_eq_ok_iff.1 ok
  refine ⟨?_, fun d laid => ?_⟩
  · obtain ⟨s, denotes, -⟩ := stands
    obtain ⟨d, laid, -⟩ := denotes.exists_draft
    exact ⟨d, laid⟩
  · have means := laid.stands_iff.1 stands
    refine ⟨fun d' text' edits laid' => ?_, ?_⟩
    · have means' := Draft.means_of_edits edits means
      exact Plan.readChars_eq_ok_iff.2 ⟨laid'.stands_iff.2 means', valid⟩
    · have patterns := means.forall₂_patterns
      rw [Draft.statement, List.forall₂_map_left_iff] at patterns
      exact patterns.imp fun _ _ => PatternDraft.kept

/-- Two texts with few blanks in common: `MATCH` in capitals or not, a label with backticks or
without, the entries in one order or the other, and two blanks in a string that stay. -/
theorem Plan.read_edited_of_swapped :
    let p : Plan := ⟨[⟨[⟨"n", ["A"], (Table.empty.insert "k" (.string "a  b")).insert "i"
      (.integer 7)⟩]⟩], .ofList ["n"]⟩
    Plan.read "MATCH (n:A \x7bk: 'a  b', i: 7\x7d) RETURN n" = .ok p ∧
      Plan.read "match(n:\x60A\x60\x7bi:7\t,k : 'a  b'\x7d)RETURN\n n " = .ok p := by
  intro p
  have word : ∀ {c}, isWordChar c → Word [c] := fun h =>
    ⟨List.cons_ne_nil _ _, List.forall_mem_singleton.2 h⟩
  let n : VariableDraft := ⟨['n'], word rfl⟩
  let k : EntryDraft := ⟨.plain ['k'] (word rfl), .text '\'' "a  b".toList (.inl rfl) (by decide)⟩
  let i : EntryDraft := ⟨.plain ['i'] (word rfl), .integer false ['7'] (List.cons_ne_nil _ _)
    (List.forall_mem_singleton.2 rfl)⟩
  let draft (keyword : List Char) (spelled : isKeyword "match" keyword) (label : NameDraft)
      (entries : List EntryDraft) : Draft :=
    ⟨[⟨keyword, spelled, ⟨n, [label], some entries⟩⟩], List.cons_ne_nil _ _, "RETURN".toList, rfl,
      [n], List.cons_ne_nil _ _⟩
  let plain : NameDraft := .plain ['A'] (word rfl)
  let quoted : NameDraft := .quoted ['A'] (by decide) (by decide)
  let d := draft "MATCH".toList rfl plain [k, i]
  let d' := draft "match".toList rfl quoted [i, k]
  have edits : Relation.ReflTransGen Draft.Edited d d' := by
    have lowered : d.Edited (draft "match".toList rfl plain [k, i]) := .clause (.here .keyword)
    have renamed : (draft "match".toList rfl plain [k, i]).Edited
        (draft "match".toList rfl quoted [k, i]) :=
      .clause (.here (.pattern (.label (.here .quote))))
    have swapped : (draft "match".toList rfl quoted [k, i]).Edited d' :=
      .clause (.here (.pattern (.order (.swap _ _ _))))
    exact .tail (.tail (.single lowered) renamed) swapped
  have gaps : ∀ {parts : List (List Char × List Char)}, (∀ p ∈ parts, p.1.all isSeparator) →
      ∀ p ∈ parts, Gap p.1 := fun h p hp => List.all_eq_true.1 (h p hp)
  have laid : d.LaidOut "MATCH (n:A \x7bk: 'a  b', i: 7\x7d) RETURN n".toList := by
    have front := laid_flatMap [([], "MATCH".toList), ([' '], ['(']), ([], ['n']), ([], [':']),
      ([], ['A']), ([' '], ['\x7b']), ([], ['k']), ([], [':']), ([' '], "'a  b'".toList),
      ([], [',']), ([' '], ['i']), ([], [':']), ([' '], ['7']), ([], ['\x7d']), ([], [')']),
      ([' '], "RETURN".toList)] (gaps (by decide))
    have back := laid_flatMap [([], ['n'])] (gaps (by decide))
    exact .mk (d := d) (u := [' ']) front .blank (List.cons_ne_nil _ _) back .nil
  have laid' : d'.LaidOut
      "match(n:\x60A\x60\x7bi:7\t,k : 'a  b'\x7d)RETURN\n n ".toList := by
    have front := laid_flatMap [([], "match".toList), ([], ['(']), ([], ['n']), ([], [':']),
      ([], "\x60A\x60".toList), ([], ['\x7b']), ([], ['i']), ([], [':']), ([], ['7']),
      (['\t'], [',']), ([], ['k']), ([' '], [':']), ([' '], "'a  b'".toList), ([], ['\x7d']),
      ([], [')']), ([], "RETURN".toList)] (gaps (by decide))
    have back := laid_flatMap [([' '], ['n'])] (gaps (by decide))
    have newline : Gap ['\n'] := List.forall_mem_singleton.2 rfl
    exact .mk (d := d') front newline (List.cons_ne_nil _ _) back .blank
  have ok : Plan.read "MATCH (n:A \x7bk: 'a  b', i: 7\x7d) RETURN n" = .ok p := by decide
  exact ⟨ok, ((Plan.read_edited ok).2 d laid).1 d' _ edits laid'⟩

end PropertyGraph.Query
