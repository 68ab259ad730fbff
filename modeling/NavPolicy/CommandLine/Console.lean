import NavPolicy.Agent.Loop
import NavPolicy.CommandLine.Inspect
import NavPolicy.Config.Reader

/-!
# The agent at the console

The agent run from the command line takes its commands from lines of text: `refresh`, `status`, `quit`
or `exit`, and the number of a tab with a URL for a navigation in that tab.  Blank lines are skipped and
other lines draw a notice.

`navigation?` reads a navigation off a line; `serveConsole` is the whole run on given batches of lines.

## Tasks

Refreshes and navigations are tasks, which the console starts and does not wait for.  They get on while
it waits for something else: for the answer to a question, or for more input.  That is time enough for a
task, except for a refresh whose results go to a file: it is still under way then, and what a later
question asks about waits for it.  At the end the console waits for all of them.
-/

namespace NavPolicy.CommandLine

open Agent (Program)
open Agent.Program (perform)

/-! ## Lines -/

/-- The number of a tab: decimal digits after a sign that may stand before them. -/
def tab? : List Char → Option Int32
  | '-' :: ds =>
    (Text.readNat? ds).bind fun n => if n ≤ 1 <<< 31 then some (.ofInt (-n)) else none
  | ds =>
    (Text.readNat? (unsignedDigits ds)).bind fun n => if n < 1 <<< 31 then some (.ofNat n) else none

/-- The navigation that a line tells of: a tab, a blank, and a URL with any blanks around it. -/
def navigation? (line : String) : Option Navigation :=
  let cs := line.toList
  match cs.dropWhile (!Text.isBlank ·) with
  | [] => none
  | _ :: rest =>
    let url := Text.trim rest
    if url.isEmpty then none
    else (tab? (cs.takeWhile (!Text.isBlank ·))).map fun tab => .loading tab (String.ofList url)

/-- What a line asks for. -/
inductive Line where
  | blank
  | stop
  | command (c : Agent.Command)
  | unreadable (text : String)
  deriving DecidableEq, Repr

/-- What a line asks for, blanks at its ends apart. -/
def Line.ofText (text : String) : Line :=
  match String.ofList (Text.trim text.toList) with
  | "" => .blank
  | "quit" => .stop
  | "exit" => .stop
  | "refresh" => .command .refresh
  | "status" => .command .status
  | line =>
    match navigation? line with
    | some n => .command (.navigate n)
    | none => .unreadable line

/-! ## Tasks -/

/-- A task that has been started, and whether it takes longer than the console waits. -/
structure Task where
  program : Program Unit
  isSlow : Bool

/-- The console on its way through its lines. -/
structure Console where
  /-- What it has printed, the statuses in the order of the questions. -/
  printed : List String
  /-- The tasks that have been started since it last waited. -/
  started : List Task
  /-- The tasks that were not done when it last waited. -/
  underWay : List (Program Unit)

/-- Runs programs one after the other. -/
def runAll : List (Program Unit) → Program Unit
  | [] => return ()
  | p :: ps => do
    p
    runAll ps

namespace Console

/-- The console before its first line. -/
def fresh : Console := ⟨[], [], []⟩

/-- The number of tasks that are not done. -/
def pending (k : Console) : Nat := k.underWay.length + k.started.length

/-- Waits for something else than its tasks: those that are not slow get done. -/
def pause (k : Console) : Program Console := do
  let (slow, quick) := k.started.partition (·.isSlow)
  runAll (quick.map (·.program))
  return { k with started := [], underWay := k.underWay ++ slow.map (·.program) }

/-- Waits for the tasks that are under way. -/
def settle (k : Console) : Program Console := do
  runAll k.underWay
  return { k with underWay := [] }

/-- Starts a task. -/
def start (k : Console) (t : Task) : Console := { k with started := k.started ++ [t] }

/-- Ends, with a notice if there are tasks to wait for. -/
def finish (k : Console) : Program (List String) := do
  if k.pending ≠ 0 then perform (.note (.info s!"Waiting for {k.pending} pending tasks"))
  let k ← (← k.settle).pause
  let k ← k.settle
  perform (.note (.info "Agent stopped"))
  return k.printed

end Console

/-! ## Serving lines -/

/-- What an answer of the agent prints. -/
def replyLines : Agent.Reply → Program (List String)
  | .status (.ok s) => return [s.toJson.indented]
  | .status (.error e) => do
    perform (.note (.error s!"Status unavailable: {e.message}"))
    return []
  | _ => return []

/-- Serves a command; for an answer it waits, for a task it does not. -/
def serveCommand (c : Config) (k : Console) (command : Agent.Command) : Program Console :=
  match command.service c with
  | .task p => return k.start ⟨p, command = .refresh && c.statePath.isSome⟩
  | .answer p => do
    let k ← k.settle
    let reply ← p
    let k ← k.pause
    return { k with printed := k.printed ++ (← replyLines reply) }
  | .stop => return k

/-- Serves a line; a line that asks for the end serves nothing. -/
def serveLine (c : Config) (k : Console) : Line → Program Console
  | .command command => serveCommand c k command
  | .unreadable text => do
    perform (.note (.warn s!"Expected '<tabId> <url>', got '{text}'"))
    return k
  | _ => return k

/-- Serves the lines of a batch up to one that asks for the end, and tells whether there is one. -/
def serveBatch (c : Config) (k : Console) : List String → Program (Console × Bool)
  | [] => return (← k.pause, false)
  | text :: texts =>
    match Line.ofText text with
    | .stop => return (k, true)
    | line => do serveBatch c (← serveLine c k line) texts

/-- Serves batches up to a line that asks for the end. -/
def serveBatches (c : Config) (k : Console) : List (List String) → Program Console
  | [] => return k
  | lines :: batches => do
    let (k, hasEnded) ← serveBatch c k lines
    if hasEnded then return k else serveBatches c k batches

/-! ## The run -/

/-- The settings for a run, given what was found of the configuration file. -/
def runConfig (o : RunOptions) (found : FoundFile) : Except String Config :=
  let settings : Except String Config :=
    match o.config with
    | none => .ok .default
    | some file =>
      let settings : Except ConfigError Config :=
        match found with
        | .ok text => Config.ofText text
        | .error e => .error (.io e.message)
      settings.mapError fun e => s!"Failed to load '{file}': {e.message}"
  settings.map fun c => { c with statePath := o.state.or c.statePath }

/-- The store for a run, given what was found of the file that keeps it. -/
def runStore (c : Config) (found : FoundFile) : Except String Store :=
  match c.statePath with
  | none => .ok .empty
  | some path =>
    (Store.openFile path found).mapError fun e => s!"Failed to open '{path}': {e.message}"

/-- Presents the password, if there is one; gives the session after. -/
def openSession (password : Option String) : Program (Except Agent.Error Session) :=
  match password with
  | none => return .ok .fresh
  | some password => do
    let (answer, session) ← Agent.unlock .fresh password
    return answer.map fun _ => session

/-- Sets the policy URL, if one is given. -/
def presetUrl (c : Config) (o : RunOptions) : Program (Except Agent.Error Unit) :=
  match o.policyUrl with
  | none => return .ok ()
  | some url => do
    match ← openSession o.password with
    | .error e => return .error e
    | .ok session => Agent.setPolicyUrl c session url

/-- Runs the agent on batches of lines, and gives what it prints besides the overrides. -/
def serveConsole (c : Config) (o : RunOptions) (batches : List (List String)) : Program Outcome := do
  match ← presetUrl c o with
  | .error e => return .error e.message
  | .ok () =>
    Agent.startup c
    let k ← serveBatches c .fresh batches
    return .ok (← k.finish)

end NavPolicy.CommandLine
