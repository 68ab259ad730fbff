import NavPolicy.Agent.Interleaving
import NavPolicy.Agent.Loop

/-!
# Schedules of the command loop

The command loop and the tasks that it has started take turns action by action.  Between its own actions
the loop is free to take the next command from its queue, a refresh of its schedule or the end of a task,
whichever it comes to first; once it has taken the end of the queue, or a command that says so, it waits for
its tasks.  A task that has ended counts as pending until the loop has taken its end.

A schedule is the list of choices that were made.  A choice that is not open changes nothing, so every
list is a schedule; one that brings the loop to its end leaves it in the phase `stopped`.
-/

namespace NavPolicy.Agent

/-- What the loop is doing itself. -/
inductive LoopPhase where
  /-- It refreshes before the first command. -/
  | starting (p : Program Unit)
  /-- It is free to take a command. -/
  | listening
  /-- It works out an answer. -/
  | answering (p : Program Reply)
  /-- It waits for its tasks. -/
  | waiting
  | stopped

/-- The loop with its tasks. -/
structure Schedule where
  phase : LoopPhase
  /-- The commands that have not been taken; behind them the queue ends. -/
  queue : List Command
  /-- The tasks, and what they share with the loop. -/
  tasks : Interleaving Unit
  replies : List Reply
  /-- The number of tasks whose end the loop has taken. -/
  joined : Nat

/-- What may happen next. -/
inductive Choice where
  /-- The loop goes on with its own work, or takes the next command if it has none. -/
  | loop
  /-- The loop takes a refresh of its schedule. -/
  | tick
  /-- The loop takes the end of a task. -/
  | join
  /-- The task at a place has a turn. -/
  | task (place : Nat)
  deriving DecidableEq, Repr

namespace Schedule

/-- The loop at its very start. -/
def start (c : Config) (queue : List Command) (s : State) : Schedule :=
  ⟨.starting (startup c), queue, .ofPrograms s [], [], 0⟩

/-- Starts a task. -/
def spawn (m : Schedule) (p : Program Unit) : Schedule :=
  { m with tasks := { m.tasks with programs := m.tasks.programs ++ [p] } }

/-- Gives a notice. -/
def note (m : Schedule) (n : Notice) : Schedule :=
  let s := m.tasks.state
  { m with tasks := { m.tasks with state := { s with notices := s.notices ++ [n] } } }

/-- The number of tasks whose end the loop has not taken, whether or not they have ended. -/
def pending (m : Schedule) : Nat := m.tasks.programs.length - m.joined

/-- Takes the end of a task, if one has ended whose end was not taken. -/
def join (m : Schedule) : Schedule :=
  if m.joined < m.tasks.programs.countP (fun p => p.value?.isSome) then { m with joined := m.joined + 1 }
  else m

/-- Takes no more commands; those in the queue are lost, with the answers to them. -/
def close (m : Schedule) : Schedule :=
  let lost := (m.queue.filter Command.hasReply).map fun _ => Reply.dropped
  let m := { m with phase := .waiting, queue := [], replies := m.replies ++ lost }
  if m.pending = 0 then m else m.note (.info s!"Waiting for {m.pending} pending tasks")

/-- Takes the next command. -/
def takeCommand (c : Config) (m : Schedule) : Schedule :=
  match m.queue with
  | [] => m.close
  | command :: queue =>
    let m := { m with queue }
    match command.service c with
    | .task p => m.spawn p
    | .answer p => { m with phase := .answering p }
    | .stop => m.close

/-- Goes on with the work of the loop itself. -/
def loopTurn (env : Surroundings) (c : Config) (m : Schedule) : Schedule :=
  match m.phase with
  | .starting (.done ()) => { m with phase := .listening }
  | .starting p =>
    let (p, state, held) := p.advance env m.tasks.held m.tasks.state
    { m with phase := .starting p, tasks := { m.tasks with state, held } }
  | .listening => m.takeCommand c
  | .answering (.done reply) => { m with phase := .listening, replies := m.replies ++ [reply] }
  | .answering p =>
    let (p, state, held) := p.advance env m.tasks.held m.tasks.state
    { m with phase := .answering p, tasks := { m.tasks with state, held } }
  | .waiting =>
    if m.tasks.hasEnded then { m with phase := .stopped }.note (.info "Agent stopped") else m
  | .stopped => m

/-- Makes a choice. -/
def choose (env : Surroundings) (c : Config) (m : Schedule) : Choice → Schedule
  | .loop => m.loopTurn env c
  | .tick =>
    match m.phase with
    | .listening => m.spawn (refreshTask c)
    | _ => m
  | .join =>
    match m.phase with
    | .listening => m.join
    | _ => m
  | .task place => { m with tasks := m.tasks.turn env place }

/-- Makes choices one after the other. -/
def run (env : Surroundings) (c : Config) (m : Schedule) (choices : List Choice) : Schedule :=
  choices.foldl (choose env c) m

end Schedule

end NavPolicy.Agent
