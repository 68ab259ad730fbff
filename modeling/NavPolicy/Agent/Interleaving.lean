import NavPolicy.Agent.State

/-!
# Programs in turn with each other

Programs that run side by side take turns action by action, in any order.  One that waits for a resource
makes no progress while another holds it; nothing else holds a program up.

An interleaving is given by the places of the programs whose turn it is, one after the other.  A turn of
a program that has ended or that waits changes nothing, so every list of places is one.
-/

namespace NavPolicy.Agent

/-- Programs under way, and what they share. -/
structure Interleaving (α : Type) where
  state : State
  /-- The resources that some program holds. -/
  held : List Resource
  /-- What each program still has to do. -/
  programs : List (Program α)

namespace Program

variable {α : Type}

/-- The value of a program that has ended. -/
def value? : Program α → Option α
  | done x => some x
  | ask _ _ => none

/-- Whether the program waits while these resources are held. -/
def waits (held : List Resource) : Program α → Bool
  | ask (.acquire r) _ => r ∈ held
  | _ => false

/-- The resources that are held after an action. -/
def heldAfter (held : List Resource) : Action → List Resource
  | .acquire r => r :: held
  | .release r => held.erase r
  | _ => held

/-- Performs the next action, unless the program waits or has ended: what it still has to do, the state,
and the resources held. -/
def advance (env : Surroundings) (held : List Resource) (s : State) :
    Program α → Program α × State × List Resource
  | done x => (done x, s, held)
  | ask a next =>
    if (ask a next).waits held then (ask a next, s, held)
    else
      let (answer, s) := a.answer env s
      (next answer, s, heldAfter held a)

end Program

namespace Interleaving

variable {α : Type}

/-- Programs that have not begun. -/
def ofPrograms (s : State) (programs : List (Program α)) : Interleaving α := ⟨s, [], programs⟩

/-- Gives a turn to the program at a place. -/
def turn (env : Surroundings) (m : Interleaving α) (place : Nat) : Interleaving α :=
  match m.programs[place]? with
  | none => m
  | some p =>
    let (p, state, held) := p.advance env m.held m.state
    ⟨state, held, m.programs.set place p⟩

/-- Gives turns to the programs at these places, one after the other. -/
def turns (env : Surroundings) (m : Interleaving α) (places : List Nat) : Interleaving α :=
  places.foldl (turn env) m

/-- Whether every program has ended. -/
def hasEnded (m : Interleaving α) : Bool := m.programs.all fun p => p.value?.isSome

/-- The value of each program, where it has ended. -/
def values (m : Interleaving α) : List (Option α) := m.programs.map Program.value?

end Interleaving

end NavPolicy.Agent
