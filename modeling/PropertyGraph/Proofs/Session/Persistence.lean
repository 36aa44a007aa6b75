import PropertyGraph.Proofs.Graph.BinaryForm
import PropertyGraph.Proofs.Graph.JsonForm
import PropertyGraph.Proofs.Graph.Loading
import PropertyGraph.Proofs.Query.Answers
import PropertyGraph.Proofs.Session.Recording

/-!
# Sessions on saved graphs

A session does not get a graph but a file in which one was saved (`Saved`). It restores the dump,
makes a graph of it, answers queries from that and prints the dumps of the answers. None of these
steps loses anything, so what is printed is what the graph that was saved would have answered, text
by text (`answers_of_saved`).
-/

namespace PropertyGraph

/-! ## From the file to the graph -/

/-- A saved dump is restored, if in binary there is room to write down the lengths in it. -/
theorem Dump.restore_save {l : Layout} {format : DumpFormat} (fits : format = .binary → l.Fits) :
    restore format (l.save format) = .ok l.dump := by
  cases format with
  | json =>
    rw [restore, Layout.save, restoreJson_text]
    rfl
  | binary =>
    have read : Layout.read (l.save .binary) = .ok (l, []) :=
      Layout.read_undoes.read_eq_ok_iff.2 ⟨fits rfl, (List.append_nil _).symm⟩
    rw [restore, restoreBinary_eq_ok_iff.2 ⟨l, read, rfl⟩]
    rfl

/-- The dump of a graph that keeps its books makes that graph again. -/
theorem Store.Consistent.replays_dump {s : Store} (h : s.Consistent) : ofDump s.dump = .ok s :=
  ofDump_eq_ok_iff.2 ⟨_, Consistent.empty.load_eq_ok_iff_joins.2
    ⟨h.accepts_dump, rfl, h.joins_dump⟩⟩

namespace Session

open Query

/-- **A graph is saved** where a configuration says and in the format that it says. -/
structure Saved (files : Files) (config : Config) (s : Store) (l : Layout) : Prop where
  /-- What is in the file emits the property maps of the dump in some order. -/
  lists : l.Lists s.dump
  /-- In binary there is room to write down the lengths in it. -/
  fits : config.dumpFormat = .binary → l.Fits
  /-- The file is read back as it was written. -/
  file : ∃ path, config.dumpPath = some path ∧ files path = .ok (l.save config.dumpFormat)

variable {files : Files} {config : Config} {s : Store} {l : Layout}

/-- What is read from the file of a saved graph is the dump of the graph, whichever format it is in
and however its property maps are ordered. -/
theorem Saved.readDump {path : String} (h : Saved files config s l)
    (found : files path = .ok (l.save config.dumpFormat)) :
    readDump files config.dumpFormat path = .ok s.dump := by
  obtain ⟨-, shown⟩ := Layout.lists_iff.1 h.lists
  rw [Session.readDump, found]
  dsimp only
  rw [Dump.restore_save h.fits, shown]

/-- A session on a saved graph starts from that graph. -/
theorem Saved.openGraph (h : Saved files config s l) (hs : s.Consistent) :
    (openGraph files config).2 = .ok s := by
  obtain ⟨path, named, found⟩ := h.file
  rw [Session.openGraph, named]
  dsimp only
  rw [h.readDump found]
  dsimp only
  rw [replayDump, hs.replays_dump]

/-! ## Answering queries -/

/-- The queries in front of the first that cannot be read. -/
def readable (queries : List String) : List String :=
  queries.takeWhile fun text => (Plan.read text).isOk

/-- **What is printed for a query**: the answer of a graph, as an indented JSON text that reads back
to its dump. So would a text in which the property maps are emitted in another order. -/
def Shows (s : Store) (query printed : String) : Prop :=
  ∃ r, s.query query = .ok r ∧ printed = r.dump.text .indented ∧
    Dump.restoreJson (Utf8.ofString printed) = .ok r.dump ∧
    ∀ l : Layout, l.Lists r.dump → Dump.restoreJson (Utf8.encode (l.text .indented)) = .ok r.dump

/-- **An outcome answers queries from a graph.** -/
structure Outcome.AnswersFrom (o : Outcome) (s : Store) (queries : List String) : Prop where
  /-- One text is printed for each query in front of the first that cannot be read. -/
  printed : List.Forall₂ (Shows s) (readable queries) o.printed
  /-- The session ends early exactly at the first query that cannot be read, and says why. -/
  failure_iff : ∀ f, o.failure = some f ↔ ∃ front text rest, queries = front ++ text :: rest ∧
    (∀ t ∈ front, (Plan.read t).isOk) ∧ ∃ e, Plan.read text = .error e ∧ f = .query text e

/-- The indented text of a dump is what is printed for the query that it answers. -/
theorem shows_text {text : String} {r : Store} (ok : s.query text = .ok r) :
    Shows s text (r.dump.text .indented) := by
  refine ⟨r, ok, rfl, ?_, fun l lists => ?_⟩
  · rw [Utf8.ofString, Dump.text, String.toList_ofList, Dump.restoreJson_text, Layout.dump_layout]
  · rw [Dump.restoreJson_text, (Layout.lists_iff.1 lists).2]

/-- A query that cannot be read ends a session. -/
theorem answerAll_of_error {text : String} {e : QueryError} (read : Plan.read text = .error e)
    (s : Store) (rest : List String) :
    answerAll s (text :: rest) = ⟨[], [.rejected text e], some (.query text e)⟩ := by
  rw [answerAll_cons]
  unfold answer
  rw [read]

/-- A query that can be read has an answer from every graph, and the session goes on. -/
theorem answerAll_of_ok {text : String} {p : Plan} (read : Plan.read text = .ok p) (s : Store) :
    ∃ r, s.query text = .ok r ∧ ∀ rest,
      (answerAll s (text :: rest)).answers = r.dump :: (answerAll s rest).answers ∧
      (answerAll s (text :: rest)).failure = (answerAll s rest).failure := by
  obtain ⟨r, ran, -⟩ := p.execute_eq_ok s
  refine ⟨r, Plan.query_of_read read ran, fun rest => ?_⟩
  rw [answerAll_cons]
  unfold answer
  rw [read]
  dsimp only
  rw [ran]
  exact ⟨rfl, rfl⟩

/-- Nothing behind a query that cannot be read is answered. -/
theorem readable_of_error {text : String} {e : QueryError} (read : Plan.read text = .error e)
    (rest : List String) : readable (text :: rest) = [] := by
  rw [readable, List.takeWhile_cons, read]
  rfl

theorem readable_of_ok {text : String} {p : Plan} (read : Plan.read text = .ok p)
    (rest : List String) : readable (text :: rest) = text :: readable rest := by
  rw [readable, List.takeWhile_cons, read]
  rfl

/-- **Answering queries prints one answer for each**, in order, up to the first that cannot be read.
The induction is on the queries: each either ends the session or leaves the rest to it. -/
theorem shows_printed_answerAll (s : Store) (queries : List String) :
    List.Forall₂ (Shows s) (readable queries) (answerAll s queries).printed := by
  induction queries with
  | nil => exact .nil
  | cons text rest ih =>
    cases read : Plan.read text with
    | error e =>
      rw [readable_of_error read, answerAll_of_error read]
      exact .nil
    | ok p =>
      obtain ⟨r, ok, goes⟩ := answerAll_of_ok read s
      rw [readable_of_ok read, Outcome.printed, (goes rest).1]
      exact .cons (shows_text ok) ih

/-- **Answering queries ends early exactly at the first that cannot be read**, and for the reason
why it cannot be. There is one place for the cut, since all queries in front of it can be read. -/
theorem failure_answerAll_eq_some_iff {s : Store} {queries : List String} {f : Failure} :
    (answerAll s queries).failure = some f ↔ ∃ front text rest, queries = front ++ text :: rest ∧
      (∀ t ∈ front, (Plan.read t).isOk) ∧ ∃ e, Plan.read text = .error e ∧ f = .query text e := by
  induction queries with
  | nil => exact iff_of_false nofun not_exists_cut_nil
  | cons text rest ih =>
    rw [exists_cut_cons_iff]
    simp only [List.forall_mem_cons]
    cases read : Plan.read text with
    | error e =>
      rw [answerAll_of_error read]
      constructor
      · rintro ⟨⟩
        exact .inl ⟨List.forall_mem_nil _, e, rfl, rfl⟩
      · rintro (⟨-, e', eq, rfl⟩ | ⟨front, text', rest', -, ⟨ok, -⟩, -⟩)
        · rw [Except.error.inj eq]
        · nomatch ok
    | ok p =>
      obtain ⟨r, -, goes⟩ := answerAll_of_ok read s
      rw [(goes rest).2, ih]
      constructor
      · rintro ⟨front, text', rest', cut, before, why⟩
        exact .inr ⟨front, text', rest', cut, ⟨rfl, before⟩, why⟩
      · rintro (⟨-, e, eq, -⟩ | ⟨front, text', rest', cut, ⟨-, before⟩, why⟩)
        · nomatch eq
        · exact ⟨front, text', rest', cut, before, why⟩

/-- Every query is answered exactly if every one of them can be read: a plan has an answer from
every graph. -/
theorem failure_answerAll_eq_none_iff (s : Store) (queries : List String) :
    (answerAll s queries).failure = none ↔ ∀ text ∈ queries, (Plan.read text).isOk := by
  induction queries with
  | nil => exact iff_of_true rfl (List.forall_mem_nil _)
  | cons text rest ih =>
    rw [List.forall_mem_cons]
    cases read : Plan.read text with
    | error e =>
      rw [answerAll_of_error read]
      exact iff_of_false nofun fun all => nomatch all.1
    | ok p =>
      obtain ⟨r, -, goes⟩ := answerAll_of_ok read s
      rw [(goes rest).2, ih]
      exact (and_iff_right rfl).symm

/-- What is printed for a query is what is printed for it alone. -/
theorem printed_answerAll (s : Store) (queries : List String) : (answerAll s queries).printed =
    (readable queries).flatMap fun text => (answerAll s [text]).printed := by
  induction queries with
  | nil => rfl
  | cons text rest ih =>
    cases read : Plan.read text with
    | error e =>
      rw [readable_of_error read, answerAll_of_error read]
      rfl
    | ok p =>
      obtain ⟨r, -, goes⟩ := answerAll_of_ok read s
      have whole := (goes rest).1
      have alone := (goes []).1
      rw [readable_of_ok read, List.flatMap_cons, ← ih]
      simp only [Outcome.printed, whole, alone]
      rfl

/-! ## Sessions -/

/-- The exit status tells no more than whether the session ended early. -/
theorem Outcome.status_eq_zero_iff {o : Outcome} : o.status = 0 ↔ o.failure = none := by
  rw [status, exitStatus]
  cases o.failure <;> simp

theorem Outcome.status_eq_one_iff {o : Outcome} : o.status = 1 ↔ o.failure ≠ none := by
  rw [status, exitStatus]
  cases o.failure <;> simp

/-- A session on a saved graph brings what that graph answers. -/
theorem Saved.run {setting : Option String} {level : LogLevel} (h : Saved files config s l)
    (hs : s.Consistent) (configured : configure files setting = .ok (config, level))
    (queries : List String) : ∃ events,
      Session.run files setting queries = { answerAll s queries with events := events } := by
  have opened := h.openGraph hs
  rw [run_eq, configured]
  dsimp only
  rcases eq : Session.openGraph files config with ⟨events, result⟩
  rw [eq] at opened
  obtain rfl : result = .ok s := opened
  exact ⟨_, rfl⟩

/-- **Saving a graph is not noticed by those who query it.** Take any graph that calls have made,
and a valid configuration that names a file in which the graph was saved, in either format and with
its property maps in any order. A session then prints for each query in front of the first that
cannot be read the answer of the graph to this query, as a text that reads back to its dump; what is
printed for a query is the same if it is the only one. The session ends early, with exit status one,
exactly if some query cannot be read. -/
theorem answers_of_saved {setting : Option String} {level : LogLevel} (hs : s.Reachable)
    (configured : configure files setting = .ok (config, level)) (saved : Saved files config s l)
    (queries : List String) :
    (run files setting queries).AnswersFrom s queries ∧
    (run files setting queries).printed =
      ((readable queries).flatMap fun text => (run files setting [text]).printed) ∧
    (run files setting queries).status =
      if ∀ text ∈ queries, (Plan.read text).isOk then 0 else 1 := by
  have ran := saved.run hs.consistent configured
  obtain ⟨events, whole⟩ := ran queries
  refine ⟨?_, ?_, ?_⟩
  · rw [whole]
    exact ⟨shows_printed_answerAll s queries, fun f => failure_answerAll_eq_some_iff⟩
  · have alone : ∀ text, (run files setting [text]).printed = (answerAll s [text]).printed := by
      intro text
      obtain ⟨events, alone⟩ := ran [text]
      rw [alone]
      rfl
    simp only [alone]
    rw [whole, ← printed_answerAll]
    rfl
  · rw [whole]
    split
    next all =>
      exact Outcome.status_eq_zero_iff.2 ((failure_answerAll_eq_none_iff s queries).2 all)
    next some =>
      refine Outcome.status_eq_one_iff.2 fun none => some ?_
      exact (failure_answerAll_eq_none_iff s queries).1 none

/-- A node with two properties and a loop, saved in binary with the properties in descending order.
Of three queries the second cannot be read. -/
theorem answers_of_saved_of_loop :
    let s : Store := .after .empty
      [.addNode "a" "L" ((Table.empty.insert "b" (.boolean true)).insert "k" (.integer 1)),
        .addEdge ⟨"x", "a", "K", "a", .empty⟩]
    let l : Layout := ⟨[⟨"a", "L", [("k", .integer 1), ("b", .boolean true)], ["x"], ["x"]⟩],
      [⟨"x", "a", "K", "a", []⟩]⟩
    let files : Files := fun path => if path = "d" then .ok (l.save .binary)
      else .ok (Utf8.ofString "dump_path: d\ndump_format: binary")
    let config : Config := ⟨"draft", some "d", .binary, "info"⟩
    let queries := ["MATCH (n:L) RETURN n", "MATCH n RETURN n", "MATCH (n) RETURN n"]
    s.Reachable ∧ configure files (some "c") = .ok (config, .info) ∧ Saved files config s l ∧
      (run files (some "c") queries).AnswersFrom s queries ∧
      (run files (some "c") queries).status = 1 := by
  intro s l files config queries
  have reachable : s.Reachable := ⟨_, rfl⟩
  have configured : configure files (some "c") = .ok (config, .info) :=
    eq_ok_of_toOption (by decide +kernel)
  have saved : Saved files config s l :=
    ⟨Layout.lists_iff.2 ⟨by decide, by rfl⟩, fun _ => by decide, "d", rfl, rfl⟩
  obtain ⟨answers, -, status⟩ := answers_of_saved reachable configured saved queries
  refine ⟨reachable, configured, saved, answers, status.trans (if_neg ?_)⟩
  decide +kernel

end Session

end PropertyGraph
