import NavPolicy.BlockRule
import NavPolicy.Lock
import NavPolicy.Redirect
import NavPolicy.Store
import NavPolicy.Time.Rfc3339

/-!
# The agent's cells in a store

The agent keeps seven values, each as compact JSON under a key of its own.  A cell fixes the key and
the type of the value together.
-/

namespace NavPolicy

/-- The values that the agent keeps. -/
inductive Cell where
  | policyUrl
  | blockRules
  | redirectRules
  | accessLock
  | lastAttempt
  | lastResult
  | lastSuccess
  deriving DecidableEq, Repr

namespace Cell

/-- All cells. -/
def all : List Cell :=
  [policyUrl, blockRules, redirectRules, accessLock, lastAttempt, lastResult, lastSuccess]

/-- The key under which a value is kept. -/
def key : Cell → String
  | policyUrl => "configUrl"
  | blockRules => "blockRules"
  | redirectRules => "redirectRules"
  | accessLock => "accessLock"
  | lastAttempt => "lastFetchAttempt"
  | lastResult => "lastFetchResult"
  | lastSuccess => "lastSuccessfulFetch"

/-- The type of a value. -/
abbrev Content : Cell → Type
  | policyUrl => String
  | blockRules => List BlockRule
  | redirectRules => List RedirectRule
  | accessLock => AccessLock
  | lastAttempt => Time.Instant
  | lastResult => String
  | lastSuccess => Time.Instant

instance (c : Cell) : Json.Persisted c.Content :=
  match c with
  | policyUrl => inferInstanceAs (Json.Persisted String)
  | blockRules => inferInstanceAs (Json.Persisted (List BlockRule))
  | redirectRules => inferInstanceAs (Json.Persisted (List RedirectRule))
  | accessLock => inferInstanceAs (Json.Persisted AccessLock)
  | lastAttempt => inferInstanceAs (Json.Persisted Time.Instant)
  | lastResult => inferInstanceAs (Json.Persisted String)
  | lastSuccess => inferInstanceAs (Json.Persisted Time.Instant)

/-- The value that what stands under the cell's key gives; there may be nothing. -/
def decode (c : Cell) : Option String → Except StoreError (Option c.Content)
  | none => .ok none
  | some text =>
    match Json.read (α := c.Content) text with
    | .ok x => .ok (some x)
    | .error e => .error (.invalid c.key e)

/-- The text under which a value is kept. -/
def encode (c : Cell) (x : c.Content) : String := Json.write x

end Cell

/-- The record of the latest fetches. -/
structure FetchRecord where
  attemptTime : Option Time.Instant
  result : Option String
  successTime : Option Time.Instant
  deriving DecidableEq, Repr

instance : Json.Persisted FetchRecord where
  toJson r := .record
    [("attemptTime", Json.toJson r.attemptTime), ("result", Json.toJson r.result),
      ("successTime", Json.toJson r.successTime)]
  ofJson v := do
    let fields ← Json.Record.ofValue ["attemptTime", "result", "successTime"] v
    return ⟨← fields.nullable "attemptTime", ← fields.nullable "result",
      ← fields.nullable "successTime"⟩

end NavPolicy
