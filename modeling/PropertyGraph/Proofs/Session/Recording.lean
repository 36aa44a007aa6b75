import PropertyGraph.Session.Run

/-!
# Sessions in closed form

A session is written for any console. At the one that keeps a record its steps change a state, and
here that state is told without them: answering queries appends to the record what `answerAll`
brings, whatever has been recorded before (`run_answerEach`), and so a whole session brings what its
configuration, its graph and its queries give one after the other (`run_eq`).
-/

namespace PropertyGraph.Session

/-- What answering queries brings, up to the first that has no answer, with all there is to tell. -/
def answerAll (s : Store) : List String → Outcome
  | [] => ⟨[], [], none⟩
  | text :: rest =>
    match answer s text with
    | (events, .error failure) => ⟨[], events, some failure⟩
    | (events, .ok dump) =>
      let more := answerAll s rest
      ⟨dump :: more.answers, events ++ more.events, more.failure⟩

theorem answerAll_cons (s : Store) (text : String) (rest : List String) :
    answerAll s (text :: rest) = match answer s text with
      | (events, .error failure) => ⟨[], events, some failure⟩
      | (events, .ok dump) => ⟨dump :: (answerAll s rest).answers,
          events ++ (answerAll s rest).events, (answerAll s rest).failure⟩ := by
  rfl

/-- A log level judges each event alone. -/
theorem told_append (level : LogLevel) (events more : List Event) :
    told level (events ++ more) = told level events ++ told level more :=
  List.filter_append _ _

section

variable {files : Files} {level : LogLevel} {o : Outcome}

/-! ## The recording console -/

theorem recording_files_bind {α : Type} {paths : List String} {next : Files → StateM Outcome α} :
    (Console.recording files).files paths >>= next = next files := by
  rfl

/-- A step that is taken puts on record what the level admits of it. -/
theorem run_recording_take_bind {α β : Type} {step : Unit → Step α}
    {next : Except Failure α → StateM Outcome β} :
    ((Console.recording files).take level step >>= next).run o =
      (next (step ()).2).run { o with events := o.events ++ told level (step ()).1 } := by
  rfl

/-- An answer that is printed goes on record behind those before it. -/
theorem run_recording_print_bind {dump : Dump} {next : Unit → StateM Outcome β} :
    ((Console.recording files).print dump >>= next).run o =
      (next ()).run { o with answers := o.answers ++ [dump] } := by
  rfl

end

/-! ## Sessions on record -/

/-- **Answering queries adds to a record what they bring**, and gives the reason for an early end.
-/
theorem run_answerEach (files : Files) (level : LogLevel) (s : Store) (queries : List String)
    (o : Outcome) : (answerEach (.recording files) level s queries).run o =
      ((answerAll s queries).failure, ⟨o.answers ++ (answerAll s queries).answers,
        o.events ++ told level (answerAll s queries).events, o.failure⟩) := by
  -- for any record: when the rest is answered, the first answer is on it already
  induction queries generalizing o with
  | nil =>
    show (none, o) = ((none : Option Failure), ⟨o.answers ++ [], o.events ++ [], o.failure⟩)
    rw [List.append_nil, List.append_nil]
  | cons text rest ih =>
    rw [answerEach, answerAll_cons, run_recording_take_bind]
    rcases answer s text with ⟨events, failure | dump⟩
    · dsimp only
      rw [List.append_nil]
      rfl
    · dsimp only
      rw [run_recording_print_bind, ih, told_append, List.append_assoc, List.append_assoc]
      rfl

/-- **What a whole session brings.** -/
theorem run_eq (files : Files) (setting : Option String) (queries : List String) :
    run files setting queries = match configure files setting with
      | .error failure => ⟨[], [], some failure⟩
      | .ok (config, level) => match openGraph files config with
        | (events, .error failure) => ⟨[], told level events, some failure⟩
        | (events, .ok s) => { answerAll s queries with
            events := told level (events ++ (answerAll s queries).events) } := by
  rw [run, session, recording_files_bind]
  cases configure files setting with
  | error failure => rfl
  | ok made =>
    obtain ⟨config, level⟩ := made
    dsimp only
    rw [recording_files_bind, run_recording_take_bind]
    rcases openGraph files config with ⟨events, failure | s⟩
    · rfl
    · dsimp only
      rw [run_answerEach, told_append]
      rfl

end PropertyGraph.Session
