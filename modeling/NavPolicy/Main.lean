import NavPolicy.CommandLine.Console
import NavPolicy.CommandLine.Input
import NavPolicy.Files.Path
import Std.Time.DateTime.Timestamp

/-!
# The program

Reads files, prints, and looks at the clock for the command line.  The state file is written whenever
the store changes, and overrides are printed as they are sent.  There is no access to the net here, so
fetching and probing fail.
-/

namespace NavPolicy.CommandLine

open Agent (Action Program State Surroundings)

/-! ## Files -/

/-- Why the system does not read or write a file.  It gives its numbers with either sign. -/
def ioError : IO.Error → IoError
  | .noFileOrDirectory .. => .notFound
  | .alreadyExists .. => .occupied
  | .resourceBusy .. => .busy
  | .inappropriateType _ code _ =>
    if code = 21 || code = 0 - 21 then .isADirectory else .notADirectory
  | .invalidArgument _ code message =>
    if code = 36 || code = 0 - 36 then .nameTooLong else .other message
  | e => .other e.toString

/-- Reads a file. -/
def readFile (path : String) : IO FoundFile := do
  if '\x00' ∈ path.toList then return .error .zeroByte
  try
    match String.fromUTF8? (← IO.FS.readBinFile path) with
    | some text => return .ok text
    | none => return .error .notText
  catch e => return .error (ioError e)

/-- Writes a file by way of a draft, so that it is never found half written. -/
def writeFile (path text : String) : IO Unit := do
  if let some parent := Path.parent? path then IO.FS.createDirAll parent
  IO.FS.writeFile (Path.draft path) text
  IO.FS.rename (Path.draft path) path

/-- Writes the file that keeps a store. -/
def saveStore (path : Option String) (s : Store) : IO (Except StoreError Unit) := do
  match path with
  | none => return .ok ()
  | some path =>
    try
      writeFile path s.fileText
      return .ok ()
    catch e => return .error (.io (ioError e))

/-! ## Running programs -/

/-- The time that it is. -/
def currentTime : IO Time.Instant := do
  let t := (← Std.Time.Timestamp.now).toNanosecondsSinceUnixEpoch.toInt
  return ⟨t / 1000000000, (t % 1000000000).toNat⟩

/-- Surroundings without the net. -/
def surroundings (time : Time.Instant) : Surroundings := .offline "no access to the net" time

/-- Performs an action whose effect on the outside is a new text of the state file. -/
def performSaved (path : Option String) (a : Action) (s : State) : IO (a.Answer × State) := do
  let (answer, next) := a.answer (surroundings (← currentTime)) s
  if next.store.entries = s.store.entries then return (answer, next)
  else
    match ← saveStore path next.store with
    | .ok () => return (answer, next)
    | .error e =>
      let refusing : Surroundings :=
        { surroundings (← currentTime) with
          writeFault := fun _ =>
            match e with
            | .io fault => some fault
            | .invalid _ _ => none }
      return a.answer refusing s

/-- Prints the notices and overrides of a state and forgets them. -/
def printNews (s : State) : IO State := do
  for n in s.notices do
    unless n.level = .debug do IO.eprintln n.line
  for o in s.sent do IO.println (Json.write o)
  return { s with notices := [], sent := [] }

/-- Runs a program with its effects on the outside. -/
def perform {α : Type} (path : Option String) : Program α → State → IO (α × State)
  | .done x, s => return (x, s)
  | .ask a next, s => do
    let (answer, s) ← performSaved path a s
    perform path (next answer) (← printNews s)

/-! ## The commands -/

/-- Prints what a command comes to; gives the exit code. -/
def report : Outcome → IO UInt32
  | .ok lines => do
    for line in lines do IO.println line
    return 0
  | .error e => do
    IO.eprintln s!"Error: {e}"
    return 1

/-- Tenths of a millisecond in milliseconds. -/
def tenths (n : Nat) : String := s!"{n / 10}.{n % 10}"

/-- Runs a command on a policy file, with the time that loading takes. -/
def inspect (file : String) (command : String → Except String PolicyDocument → Program Outcome) :
    IO UInt32 := do
  let found ← readFile file
  let start ← IO.monoNanosNow
  let loaded ← IO.lazyPure fun _ => loadPolicy file found
  let stop ← IO.monoNanosNow
  let elapsed := tenths ((stop - start) / 100000)
  let (outcome, _) ← perform none (command elapsed loaded) (.initial .empty .empty)
  report outcome

/-- Serves a batch of lines; tells whether the run is over, or why it fails. -/
def serveInputLines (c : Config) (k : Console) (lines : List (List UInt8)) (s : State) :
    IO (Except String (Console × Bool) × State) := do
  let (texts, all) := textLines lines
  let ((k, hasEnded), s) ← perform c.statePath (serveBatch c k texts) s
  for text in k.printed do IO.println text
  (← IO.getStdout).flush
  if all || hasEnded then return (.ok ({ k with printed := [] }, hasEnded), s)
  else return (.error "Failed to read stdin: stream did not contain valid UTF-8", s)

/-- Serves the standard input from the start of a line on. -/
partial def serveInput (c : Config) (input : IO.FS.Stream) (k : Console) (start : List UInt8)
    (s : State) : IO (Except String Console × State) := do
  let piece := (← input.read (.ofNat pieceSize)).toList
  let (lines, start) :=
    if !piece.isEmpty then readyLines start piece
    else (if start.isEmpty then [] else [start], [])
  match ← serveInputLines c k lines s with
  | (.error e, s) => return (.error e, s)
  | (.ok (k, hasEnded), s) =>
    if hasEnded || piece.isEmpty then return (.ok k, s) else serveInput c input k start s

/-- Runs the agent on the standard input. -/
def runAgent (o : RunOptions) : IO Outcome := do
  let settings ← (o.config.mapM readFile : IO (Option FoundFile))
  match runConfig o (settings.getD (.error .notFound)) with
  | .error e => return .error e
  | .ok c =>
    let found ← (c.statePath.mapM readFile : IO (Option FoundFile))
    match runStore c (found.getD (.error .notFound)) with
    | .error e => return .error e
    | .ok store =>
      let (preset, s) ← perform c.statePath (presetUrl c o) (.initial store .empty)
      match preset with
      | .error e => return .error e.message
      | .ok () =>
        let ((), s) ← perform c.statePath (Agent.startup c) s
        match ← serveInput c (← IO.getStdin) .fresh [] s with
        | (.error e, _) => return .error e
        | (.ok k, s) =>
          let (printed, _) ← perform c.statePath k.finish s
          return .ok printed

/-- Does what is asked for; gives the exit code. -/
def fulfil : Request → IO UInt32
  | .hash secret => report (hashSecret secret)
  | .compile file format => inspect file fun elapsed loaded => compileFile file elapsed loaded format
  | .verify file secret => inspect file fun elapsed loaded => verifyFile file elapsed loaded secret
  | .check file url probing timeoutMs =>
    inspect file fun elapsed loaded => checkFile file elapsed loaded url probing timeoutMs
  | .run o => do report (← runAgent o)

end NavPolicy.CommandLine

/-- Does what the arguments ask for; arguments that cannot be followed have exit code 2. -/
def main (args : List String) : IO UInt32 := do
  match NavPolicy.CommandLine.Request.ofArguments args with
  | .ok request => NavPolicy.CommandLine.fulfil request
  | .error e =>
    IO.eprintln s!"error: {e.message}"
    return 2
