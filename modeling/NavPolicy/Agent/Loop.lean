import NavPolicy.Agent.Operations

/-!
# The command loop

The agent serves commands from a queue.  Before the first it refreshes once, if a policy URL is set.
Passwords and questions about its state it answers at once; refreshes and navigations become tasks of
their own, as do the refreshes of its schedule.  When the queue ends, or a command says so, it waits for
its tasks.

`Loop.serve` takes the tasks in the order in which they came up, each of them whole, after the commands
that stand in the queue.
-/

namespace NavPolicy.Agent

open Program (perform)

/-- What the agent can be asked to do. -/
inductive Command where
  | refresh
  | navigate (n : Navigation)
  | verifyPassword (password : String)
  | status
  | shutdown
  deriving DecidableEq, Repr

/-- The answer to a command that has one. -/
inductive Reply where
  | verified (ok : Bool)
  | status (s : Except Error Status)
  /-- The agent stopped before it came to the command. -/
  | dropped

/-- Whether a command has an answer. -/
def Command.hasReply : Command → Bool
  | verifyPassword _ => true
  | status => true
  | _ => false

/-! ## Tasks -/

/-- Gives a notice about how a refresh went. -/
def reportRefresh : Except Error RefreshOutcome → Program Unit
  | .ok (.applied stats) =>
    perform <| .note <| .info <|
      s!"Policy refreshed: {stats.blockRules} block, {stats.redirectRules} redirect rules"
  | .ok .noSource => return ()
  | .error e => perform (.note (.error s!"Policy refresh failed: {e.message}"))

/-- The task of a refresh. -/
def refreshTask (c : Config) : Program Unit := do
  reportRefresh (← refresh c)

/-- The task of a navigation. -/
def navigateTask (c : Config) (n : Navigation) : Program Unit := do
  match ← navigate c n with
  | .ok _ => return ()
  | .error e =>
    perform (.note (.error s!"Navigation handling failed for tab {n.tab.toInt}: {e.message}"))

/-- What the agent does before it serves commands. -/
def startup (c : Config) : Program Unit := do
  match ← policyUrl c with
  | .ok (some _) => refreshTask c
  | .ok none => return ()
  | .error e => perform (.note (.error s!"Cannot read policy URL: {e.message}"))

/-- Answers whether a password is right; where that cannot be told it is not. -/
def verifyCommand (password : String) : Program Reply := do
  match ← verifyPassword password with
  | .ok ok => return .verified ok
  | .error e =>
    perform (.note (.error s!"Password check failed: {e.message}"))
    return .verified false

/-- What serving a command comes to. -/
inductive Service where
  /-- A task of its own. -/
  | task (p : Program Unit)
  /-- An answer given at once. -/
  | answer (p : Program Reply)
  /-- The end. -/
  | stop

/-- How a command is served. -/
def Command.service (c : Config) : Command → Service
  | refresh => .task (refreshTask c)
  | navigate n => .task (navigateTask c n)
  | verifyPassword password => .answer (verifyCommand password)
  | status => .answer (do return .status (← Agent.status c))
  | shutdown => .stop

/-! ## The loop -/

/-- A loop on its way. -/
structure Loop where
  state : State
  /-- The tasks that have come up and not been run. -/
  tasks : List (Program Unit)
  /-- The answers so far. -/
  replies : List Reply
  /-- Whether it still takes commands. -/
  running : Bool

namespace Loop

/-- The loop before its first command. -/
def start (env : Surroundings) (c : Config) (s : State) : Loop :=
  ⟨((startup c).run env s).2, [], [], true⟩

/-- Takes a command; once the loop has stopped a command is lost. -/
def take (env : Surroundings) (c : Config) (l : Loop) (command : Command) : Loop :=
  if !l.running then
    if command.hasReply then { l with replies := l.replies ++ [.dropped] } else l
  else
    match command.service c with
    | .task p => { l with tasks := l.tasks ++ [p] }
    | .answer p =>
      let (reply, s) := p.run env l.state
      { l with state := s, replies := l.replies ++ [reply] }
    | .stop => { l with running := false }

/-- Runs the tasks that have come up. -/
def settle (env : Surroundings) (l : Loop) : Loop :=
  { l with state := l.tasks.foldl (fun s p => (p.run env s).2) l.state, tasks := [] }

/-- Adds refreshes of the schedule, if the loop still runs. -/
def tick (c : Config) (count : Nat) (l : Loop) : Loop :=
  if l.running then { l with tasks := l.tasks ++ List.replicate count (refreshTask c) } else l

/-- Gives a notice. -/
def note (l : Loop) (n : Notice) : Loop :=
  { l with state := { l.state with notices := l.state.notices ++ [n] } }

/-- Waits for the tasks and ends. -/
def finish (env : Surroundings) (l : Loop) : Loop :=
  let l :=
    if l.tasks.isEmpty then l
    else l.note (.info s!"Waiting for {l.tasks.length} pending tasks")
  (l.settle env).note (.info "Agent stopped")

/-- How many refreshes of the schedule fall into a number of milliseconds. -/
def ticksWithin (c : Config) (milliseconds : Nat) : Nat :=
  let delay := 1000 * c.refreshDelaySecs.toNat
  if milliseconds ≤ delay then 0 else 1 + (milliseconds - delay - 1) / (1000 * c.refreshPeriod)

/-- Serves commands until one says to stop, or until the queue has stayed open for a number of
milliseconds after them, and waits for the tasks. -/
def serve (env : Surroundings) (c : Config) (commands : List Command) (milliseconds : Nat)
    (s : State) : Loop :=
  let l := commands.foldl (take env c) (start env c s)
  let l :=
    if l.running && 0 < milliseconds then (l.tick c (ticksWithin c milliseconds)).settle env else l
  l.finish env

end Loop

end NavPolicy.Agent
