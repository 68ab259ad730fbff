import NavPolicy.Agent.Program

/-!
# Running programs

The state of an agent holds what its actions change, and its surroundings decide what they answer
otherwise: what the policy source and the remote pages say, which accesses to the store and the engine
fail, whether the browser listens, and what time it is.  The source, the pages and the clock may answer
each call differently, so they are told how many calls came before.

`Program.run` runs a program to its end with nothing in between.  Holding a resource has no effect then.
-/

namespace NavPolicy.Agent

/-- What decides the answers to actions besides the state. -/
structure Surroundings where
  source : Nat → String → Except SourceError String
  /-- What a page answers; `none` if it never does. -/
  page : Nat → String → Option (Except ProbeError Unit)
  clock : Nat → Time.Instant
  /-- Why the text under a key cannot be read. -/
  readFault : String → Option IoError
  /-- Why the text under a key cannot be set or removed. -/
  writeFault : String → Option IoError
  /-- Why the engine does not list its rules. -/
  listFault : Option String
  /-- Why the engine takes no update. -/
  updateFault : Option String
  /-- Whether the browser takes overrides. -/
  listening : Bool

/-- Surroundings where the net is out of reach, for a reason, and nothing else fails. -/
def Surroundings.offline (reason : String) (time : Time.Instant) : Surroundings where
  source := fun _ _ => .error (.transport reason)
  page := fun _ _ => some (.error (.transport reason))
  clock := fun _ => time
  readFault := fun _ => none
  writeFault := fun _ => none
  listFault := none
  updateFault := none
  listening := true

/-- What the actions of an agent change. -/
structure State where
  store : Store
  engine : Engine
  /-- The matcher that navigations share, once there is one. -/
  served : Option Matcher
  /-- The overrides that were sent. -/
  sent : List Override
  /-- The remote pages that were asked. -/
  probed : List String
  /-- The policy URLs that were fetched. -/
  fetched : List String
  /-- The notices that were given. -/
  notices : List Notice
  /-- How often the clock was looked at. -/
  ticks : Nat
  /-- How often the store was written. -/
  writes : Nat
  deriving DecidableEq

/-- The state of an agent that has just started on a store and an engine. -/
def State.initial (store : Store) (engine : Engine) : State :=
  ⟨store, engine, none, [], [], [], [], 0, 0⟩

/-- The answer to an access that may fail, and the state after it. -/
def State.attempt (s : State) (fault : Option IoError) (after : State) :
    Except StoreError Unit × State :=
  match fault with
  | some e => (.error (.io e), s)
  | none => (.ok (), { after with writes := s.writes + 1 })

/-- The answer to an action, and the state after it. -/
def Action.answer (env : Surroundings) (s : State) : (a : Action) → a.Answer × State
  | .read key =>
    match env.readFault key with
    | some e => (.error (.io e), s)
    | none => (.ok (s.store.get? key), s)
  | .write key text =>
    s.attempt (env.writeFault key) { s with store := s.store.set key text }
  | .erase key => s.attempt (env.writeFault key) { s with store := s.store.erase key }
  | .listRules =>
    match env.listFault with
    | some reason => (.error (.refused reason), s)
    | none => (.ok s.engine.rules, s)
  | .update u =>
    match env.updateFault with
    | some reason => (.error (.refused reason), s)
    | none =>
      match s.engine.apply u with
      | .ok engine => (.ok (), { s with engine, notices := s.notices ++ engine.refusals })
      | .error e => (.error e, s)
  | .fetch url =>
    (env.source s.fetched.length url, { s with fetched := s.fetched ++ [url] })
  | .probe url milliseconds =>
    ((env.page s.probed.length url).getD (.error (.silent milliseconds)),
      { s with probed := s.probed ++ [url] })
  | .redirect o => if env.listening then (true, { s with sent := s.sent ++ [o] }) else (false, s)
  | .now => (env.clock s.ticks, { s with ticks := s.ticks + 1 })
  | .note n => ((), { s with notices := s.notices ++ [n] })
  | .served => (s.served, s)
  | .serve m => ((), { s with served := some m })
  | .acquire _ => ((), s)
  | .release _ => ((), s)

/-- Runs a program to its end. -/
def Program.run {α : Type} (env : Surroundings) : Program α → State → α × State
  | .done x, s => (x, s)
  | .ask a next, s =>
    let (answer, s) := a.answer env s
    (next answer).run env s

end NavPolicy.Agent
