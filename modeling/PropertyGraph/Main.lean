import PropertyGraph.Session.Run

/-!
# The command line

Each argument is a query. The program is a session at a console that reads files, prints answers on
standard output and tells on standard error what it does.
-/

namespace PropertyGraph.Session.CommandLine

/-- Whether a code stands for an error by its number. The system gives some with the sign
turned. -/
def isNumber (code number : UInt32) : Bool := code = number || code = 0 - number

/-- The fault that an error of the system stands for. -/
def faultOf : IO.Error → FileFault
  | .noFileOrDirectory _ _ _ => .missing
  | .inappropriateType _ code _ => if isNumber code 20 then .throughFile else .directory
  | .permissionDenied _ _ _ => .other "Permission denied (os error 13)"
  | .invalidArgument path code reason =>
    if isNumber code 36 then .tooLong
    else if isNumber code 40 then .other "Too many levels of symbolic links (os error 40)"
    else .other (toString (IO.Error.invalidArgument path code reason))
  | error => .other (toString error)

/-- Reads a file. -/
def readFile (path : String) : IO (Except FileFault (List UInt8)) := do
  if path.contains '\x00' then return .error .nulInside
  try
    return .ok (← IO.FS.readBinFile path).toList
  catch error =>
    return .error (faultOf error)

/-- The files at the given paths. -/
def readFiles (paths : List String) : IO Files := do
  let found ← paths.mapM fun path => do return (path, ← readFile path)
  return fun path =>
    match found.find? (·.1 = path) with
    | some e => e.2
    | none => .error .missing

/-- Tells of events, with the time that has passed since a moment. -/
def tell (since : Nat) (events : List Event) : IO Unit := do
  let elapsed := s!"{(← IO.monoNanosNow) - since}ns"
  for event in events do
    IO.eprintln s!"{event.level.name.toUpper} {event.target}: {event.text elapsed}"

/-- The console of the command line. -/
def console : Console IO where
  files := readFiles
  take level step := do
    let since ← IO.monoNanosNow
    let (events, result) := step ()
    tell since (told level events)
    return result
  print dump := IO.println (dump.text .indented)

end PropertyGraph.Session.CommandLine

open PropertyGraph Session in
/-- Runs a session on the queries of the command line. -/
def main (queries : List String) : IO UInt32 := do
  let failure ← session CommandLine.console (← IO.getEnv Config.variableName) queries
  failure.forM fun f => IO.eprintln f.report
  return exitStatus failure
