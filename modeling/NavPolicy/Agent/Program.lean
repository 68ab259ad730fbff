import NavPolicy.Engine
import NavPolicy.Navigation
import NavPolicy.Redirect.Matcher
import NavPolicy.Store
import NavPolicy.Time.Instant

/-!
# Programs of the agent

What the agent does is a program: a value, or an action together with what is done with its answer.
The actions are those that reach out of the program: to the store, the filtering engine, the policy
source, remote pages, the browser, the clock, and the matcher that all programs share.  A program can
thus be run as a whole, and also action by action, in turn with others.

## Shared resources

Two resources are held by one program at a time: the right to refresh, and the right to load or replace
the shared matcher.
-/

namespace NavPolicy.Agent

/-! ## Errors of the world outside -/

/-- Why a policy text cannot be had. -/
inductive SourceError where
  | transport (detail : String)
  | status (code : Nat)
  deriving DecidableEq, Repr

/-- The wording of an error. -/
def SourceError.message : SourceError → String
  | transport detail => detail
  | status code => s!"HTTP error! status: {code}"

/-- The digits of a fraction of a thousand, without zeros at the end. -/
def thousandths (n : Nat) : String :=
  if n = 0 then ""
  else
    let digits := (toString (1000 + n)).toList.drop 1
    "." ++ String.ofList (digits.reverse.dropWhile (· = '0')).reverse

/-- A span of milliseconds in the largest unit that it reaches. -/
def showMilliseconds (n : Nat) : String :=
  if n = 0 then "0ns" else if n < 1000 then s!"{n}ms" else s!"{n / 1000}{thousandths (n % 1000)}s"

/-- Why a remote page does not count as answering. -/
inductive ProbeError where
  | transport (detail : String)
  | status (code : Nat)
  | silent (milliseconds : Nat)
  deriving DecidableEq, Repr

/-- The wording of an error. -/
def ProbeError.message : ProbeError → String
  | transport detail => detail
  | status code => s!"HTTP status {code}"
  | silent milliseconds => s!"No response within {showMilliseconds milliseconds}"

/-! ## Actions -/

/-- What only one program may hold at a time. -/
inductive Resource where
  | refresh
  | matcher
  deriving DecidableEq, Repr

/-- What reaches out of a program. -/
inductive Action where
  /-- Reads the text under a key. -/
  | read (key : String)
  /-- Sets the text under a key. -/
  | write (key text : String)
  /-- Removes the text under a key. -/
  | erase (key : String)
  /-- Lists the block rules in force. -/
  | listRules
  /-- Updates the block rules in force. -/
  | update (u : RuleUpdate)
  /-- Fetches a policy text. -/
  | fetch (url : String)
  /-- Asks a remote page for an answer, within a number of milliseconds. -/
  | probe (url : String) (milliseconds : Nat)
  /-- Makes a tab load another URL. -/
  | redirect (o : Override)
  /-- Looks at the clock. -/
  | now
  /-- Gives a notice. -/
  | note (n : Notice)
  /-- Looks at the shared matcher. -/
  | served
  /-- Replaces the shared matcher. -/
  | serve (m : Matcher)
  /-- Waits for a resource and takes it. -/
  | acquire (r : Resource)
  /-- Gives a resource back. -/
  | release (r : Resource)
  deriving DecidableEq

/-- The answer that an action gets. -/
abbrev Action.Answer : Action → Type
  | read _ => Except StoreError (Option String)
  | write _ _ => Except StoreError Unit
  | erase _ => Except StoreError Unit
  | listRules => Except EngineError (List BlockRule)
  | update _ => Except EngineError Unit
  | fetch _ => Except SourceError String
  | probe _ _ => Except ProbeError Unit
  | redirect _ => Bool
  | now => Time.Instant
  | note _ => Unit
  | served => Option Matcher
  | serve _ => Unit
  | acquire _ => Unit
  | release _ => Unit

/-! ## Programs -/

/-- A value, or an action and what is done with its answer. -/
inductive Program (α : Type) where
  | done (x : α)
  | ask (a : Action) (next : a.Answer → Program α)

namespace Program

variable {α β : Type}

/-- The program that goes on with the value of another. -/
def bind : Program α → (α → Program β) → Program β
  | done x, f => f x
  | ask a next, f => ask a fun answer => (next answer).bind f

instance : Monad Program where
  pure := done
  bind := bind

/-- The program of a single action. -/
def perform (a : Action) : Program a.Answer := ask a done

/-- Gives notices. -/
def notes : List Notice → Program Unit
  | [] => done ()
  | n :: ns => ask (.note n) fun _ => notes ns

end Program

end NavPolicy.Agent
