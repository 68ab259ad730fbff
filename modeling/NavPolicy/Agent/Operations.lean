import NavPolicy.Agent.State
import NavPolicy.Config
import NavPolicy.Policy.Compiled
import NavPolicy.Policy.Reader
import NavPolicy.Store.Cell

/-!
# What the agent does

The agent fetches, compiles and installs a policy (`refresh`), answers navigations (`navigate`), guards
the policy URL by the lock (`setPolicyUrl`, `removePolicyUrl`), and tells how it stands (`status`).

## Failures

A source that fails or gives no policy has every rule dropped, step by step, whatever else fails: no
policy is better than a stale one.  An engine that refuses new rules leaves everything as it was; once
it has taken them the redirect rules follow, even where they cannot be stored.  What is recorded about
fetches never stands in the way of anything.
-/

namespace NavPolicy.Agent

open Program (perform notes)

/-- Why the agent does not do what it is asked. -/
inductive Error where
  | sourceUnavailable (e : SourceError)
  | malformedDocument (e : PolicyError)
  | store (e : StoreError)
  | engine (e : EngineError)
  /-- The browser takes no overrides any more. -/
  | sinkClosed
  /-- A password is needed. -/
  | locked
  /-- An administrator has laid down the policy URL. -/
  | managed
  deriving DecidableEq, Repr

/-- The wording of an error. -/
def Error.message : Error → String
  | sourceUnavailable e => s!"Policy source unavailable: {e.message}"
  | malformedDocument e => s!"Malformed policy document: {e.message}"
  | store e => s!"Store error: {e.message}"
  | engine e => s!"Filtering engine error: {e.message}"
  | sinkClosed => "Navigation error: Navigation sink closed"
  | locked => "Options are locked"
  | managed => "Policy URL is managed by an administrator"

/-! ## Cells of the store -/

/-- Reads a cell. -/
def readCell (c : Cell) : Program (Except StoreError (Option c.Content)) := do
  match ← perform (.read c.key) with
  | .ok text => return c.decode text
  | .error e => return .error e

/-- Writes a cell. -/
def writeCell (c : Cell) (x : c.Content) : Program (Except StoreError Unit) :=
  perform (.write c.key (c.encode x))

/-- The stored policy URL; an empty one is none. -/
def storedUrl : Program (Except StoreError (Option String)) := do
  return (← readCell .policyUrl).map fun url => url.filter (· ≠ "")

/-- The stored lock; without one nothing is locked. -/
def storedLock : Program (Except StoreError AccessLock) := do
  return (← readCell .accessLock).map fun lock => lock.getD .unlocked

/-- The stored block rules. -/
def storedBlockRules : Program (Except StoreError (List BlockRule)) := do
  return (← readCell .blockRules).map fun rules => rules.getD []

/-- The stored redirect rules. -/
def storedRedirectRules : Program (Except StoreError (List RedirectRule)) := do
  return (← readCell .redirectRules).map fun rules => rules.getD []

/-- The record of the latest fetches. -/
def fetchRecord : Program (Except StoreError FetchRecord) := do
  match ← readCell .lastAttempt with
  | .error e => return .error e
  | .ok attempt =>
    match ← readCell .lastResult with
    | .error e => return .error e
    | .ok result =>
      match ← readCell .lastSuccess with
      | .error e => return .error e
      | .ok success => return .ok ⟨attempt, result, success⟩

/-- Records when a fetch succeeded, and that it did. -/
def recordSuccess (t : Time.Instant) : Program (Except StoreError Unit) := do
  match ← writeCell .lastResult "Success" with
  | .error e => return .error e
  | .ok () => writeCell .lastSuccess t

/-- The policy URL in force: the managed one, else the stored one. -/
def policyUrl (c : Config) : Program (Except StoreError (Option String)) :=
  match c.managedUrl? with
  | some url => return .ok (some url)
  | none => storedUrl

/-! ## Refreshing -/

/-- What became of a refresh. -/
inductive RefreshOutcome where
  /-- No policy URL is set. -/
  | noSource
  /-- A policy was installed. -/
  | applied (stats : CompileStats)
  deriving DecidableEq, Repr

/-- Gives a notice about a failure, if there was one. -/
def noteFailure (what : String) : Except StoreError Unit → Program Unit
  | .ok () => return ()
  | .error e => perform (.note (.warn s!"{what}: {e.message}"))

/-- Records that a fetch is tried now. -/
def noteAttempt : Program Unit := do
  noteFailure "Cannot record fetch attempt" (← writeCell .lastAttempt (← perform .now))

/-- Records how a fetch went. -/
def noteResult (result : String) : Program Unit := do
  noteFailure "Cannot record fetch result" (← writeCell .lastResult result)

/-- Records that a fetch has succeeded now. -/
def noteSuccess : Program Unit := do
  noteFailure "Cannot record fetch success" (← recordSuccess (← perform .now))

/-- Replaces the shared matcher. -/
def setMatcher (m : Matcher) : Program Unit := do
  perform (.acquire .matcher)
  perform (.serve m)
  perform (.release .matcher)

/-- Installs a compiled policy. -/
def install (p : CompiledPolicy) : Program (Except Error Unit) := do
  match ← perform .listRules with
  | .error e => return .error (.engine e)
  | .ok installed =>
    let u := BlockRule.reconcile installed p.blockRules
    match ← perform (.update u) with
    | .error e => return .error (.engine e)
    | .ok () =>
      perform <| .note <| .info <|
        s!"Applied {p.blockRules.length} blocking rules ({u.removals.length} removed, " ++
          s!"{u.additions.length} added)"
      notes (Matcher.refusals p.redirectRules)
      setMatcher (.ofRules p.redirectRules)
      let blocks ← writeCell .blockRules p.blockRules
      let redirects ← writeCell .redirectRules p.redirectRules
      let lock ← writeCell .accessLock p.lock
      match blocks, redirects, lock with
      | .error e, _, _ => return .error (.store e)
      | _, .error e, _ => return .error (.store e)
      | _, _, .error e => return .error (.store e)
      | .ok (), .ok (), .ok () =>
        perform (.note (.info s!"Stored {p.redirectRules.length} redirection rules"))
        return .ok ()

/-- Removes all rules from the engine. -/
def clearEngine : Program (Except Error Unit) := do
  match ← perform .listRules with
  | .error e => return .error (.engine e)
  | .ok installed =>
    let u := RuleUpdate.clearing installed
    if u.isEmpty then return .ok ()
    else
      match ← perform (.update u) with
      | .error e => return .error (.engine e)
      | .ok () =>
        perform (.note (.info "Cleared all blocking rules"))
        return .ok ()

/-- Drops all rules.  No failure stops the rest; the first one is told. -/
def clearRules : Program (Except Error Unit) := do
  setMatcher .empty
  let engine ← clearEngine
  let blocks ← writeCell .blockRules []
  let redirects ← writeCell .redirectRules []
  perform (.note (.info "Cleared all redirection rules"))
  match engine, blocks, redirects with
  | .error e, _, _ => return .error e
  | _, .error e, _ => return .error (.store e)
  | _, _, .error e => return .error (.store e)
  | .ok (), .ok (), .ok () => return .ok ()

/-- Drops all rules after a refresh that failed, and records why it did. -/
def failSafe (result : String) : Program Unit := do
  match ← clearRules with
  | .ok () => noteResult result
  | .error e =>
    perform <| .note <| .error <|
      s!"Clearing rules after a failed refresh was incomplete: {e.message}"
    noteResult result

/-- Compiles a document and installs it. -/
def installDocument (doc : PolicyDocument) : Program (Except Error RefreshOutcome) := do
  notes doc.notices
  let stats := doc.stats
  if 0 < stats.skipped then
    perform (.note (.warn s!"Skipped {stats.skipped} malformed policy entries"))
  match ← install doc.compile with
  | .error e => return .error e
  | .ok () => return .ok (.applied stats)

/-- Fetches a policy from a URL and installs it. -/
def refreshFrom (url : String) : Program (Except Error RefreshOutcome) := do
  noteAttempt
  match ← perform (.fetch url) with
  | .error e =>
    perform (.note (.error s!"Fetch of {url} failed: {e.message}"))
    failSafe s!"Error: {e.message}"
    return .error (.sourceUnavailable e)
  | .ok text =>
    noteSuccess
    match PolicyDocument.ofText text with
    | .error e =>
      perform (.note (.error s!"Policy from {url} is malformed: {e.message}"))
      failSafe s!"Error: Invalid policy format. {e.message}"
      return .error (.malformedDocument e)
    | .ok doc => installDocument doc

/-- Records that there is nothing to fetch. -/
def refreshNothing : Program (Except Error RefreshOutcome) := do
  noteAttempt
  noteResult "No URL configured."
  perform (.note (.info "No policy URL configured"))
  return .ok .noSource

/-- Fetches the policy anew and installs it.  Refreshes wait for each other. -/
def refresh (c : Config) : Program (Except Error RefreshOutcome) := do
  perform (.acquire .refresh)
  let outcome ←
    match ← policyUrl c with
    | .error e => pure (.error (.store e))
    | .ok none => refreshNothing
    | .ok (some url) => refreshFrom url
  perform (.release .refresh)
  return outcome

/-! ## Navigations -/

/-- Loads the shared matcher from the stored rules if there is none.  A failure leaves none. -/
def loadMatcher : Program (Except StoreError Matcher) := do
  perform (.acquire .matcher)
  let m ←
    match ← perform .served with
    | some m => pure (.ok m)
    | none =>
      match ← storedRedirectRules with
      | .error e => pure (.error e)
      | .ok rules =>
        notes (Matcher.refusals rules)
        perform (.serve (.ofRules rules))
        pure (.ok (.ofRules rules))
  perform (.release .matcher)
  return m

/-- The shared matcher, loaded if there is none. -/
def sharedMatcher : Program (Except StoreError Matcher) := do
  perform (.acquire .matcher)
  let m ← perform .served
  perform (.release .matcher)
  match m with
  | some m => return .ok m
  | none => loadMatcher

/-- The first usable candidate.  A remote page is asked each time it is come to. -/
def resolve (c : Config) : List Candidate → Program (Option String)
  | [] => return none
  | .inline url :: _ => return some url
  | .remote url :: rest => do
    match ← perform (.probe url c.probeTimeoutMs.toNat) with
    | .ok () => return some url
    | .error e =>
      perform (.note (.warn s!"Remote target {url} unavailable ({e.message}), falling back"))
      resolve c rest

/-- How many characters of a target a notice shows. -/
def previewLength : Nat := 100

/-- Goes through the rules that match a navigation to the first with a usable target. -/
def scan (c : Config) (tab : Int32) (url : String) :
    List RedirectRule → Program (Except Error (Option String))
  | [] => return .ok none
  | rule :: rules => do
    perform <| .note <| .debug <|
      s!"Checking redirect for tab {tab.toInt} ({url}) against {rule.pattern}"
    match ← resolve c rule.candidates with
    | none => scan c tab url rules
    | some target =>
      perform <| .note <| .info <|
        s!"Redirecting tab {tab.toInt} to {urlPreview target previewLength}..."
      if ← perform (.redirect ⟨tab, target⟩) then return .ok (some target)
      else return .error .sinkClosed

/-- Answers a navigation: sends the tab elsewhere if a rule says so, and gives the target. -/
def navigate (c : Config) (n : Navigation) : Program (Except Error (Option String)) := do
  match n.target? with
  | none => return .ok none
  | some url =>
    match ← sharedMatcher with
    | .error e => return .error (.store e)
    | .ok m => scan c n.tab url (m.matching url)

/-! ## The lock -/

/-- Whether a password is the one that the lock asks for. -/
def verifyPassword (password : String) : Program (Except Error Bool) := do
  match ← storedLock with
  | .error e => return .error (.store e)
  | .ok lock => return .ok (AccessLock.accepts password lock.digest)

/-- Presents a password in a session; gives whether it was the right one, and the session after. -/
def unlock (session : Session) (password : String) : Program (Except Error Bool × Session) := do
  match ← storedLock with
  | .error e => return (.error (.store e), session)
  | .ok lock =>
    let ok := AccessLock.accepts password lock.digest
    if !ok then perform (.note Session.refusalNotice)
    return (.ok ok, session.unlock password lock)

/-- Whether a session may change the policy URL, and why not. -/
def ensureEditable (c : Config) (session : Session) : Program (Except Error Unit) := do
  if c.managedUrl?.isSome then return .error .managed
  match ← storedLock with
  | .error e => return .error (.store e)
  | .ok lock => return if session.mayEdit lock then .ok () else .error .locked

/-- Sets the policy URL. -/
def setPolicyUrl (c : Config) (session : Session) (url : String) : Program (Except Error Unit) := do
  match ← ensureEditable c session with
  | .error e => return .error e
  | .ok () =>
    match ← writeCell .policyUrl url with
    | .error e => return .error (.store e)
    | .ok () =>
      perform (.note (.info s!"Policy URL set to {url}"))
      return .ok ()

/-- Removes the policy URL and then the lock. -/
def removePolicyUrl (c : Config) (session : Session) : Program (Except Error Unit) := do
  match ← ensureEditable c session with
  | .error e => return .error e
  | .ok () =>
    match ← perform (.erase Cell.policyUrl.key) with
    | .error e => return .error (.store e)
    | .ok () =>
      match ← perform (.erase Cell.accessLock.key) with
      | .error e => return .error (.store e)
      | .ok () =>
        perform (.note (.info "Policy URL removed; options unlocked"))
        return .ok ()

/-! ## How the agent stands -/

/-- How the agent stands. -/
structure Status where
  policyUrl : Option String
  managed : Bool
  record : FetchRecord
  lockStatus : LockStatus
  blockRules : Nat
  redirectRules : Nat
  deriving DecidableEq, Repr

/-- Tells how the agent stands, or the first of its values that cannot be read. -/
def status (c : Config) : Program (Except Error Status) := do
  match ← policyUrl c with
  | .error e => return .error (.store e)
  | .ok url =>
    match ← fetchRecord with
    | .error e => return .error (.store e)
    | .ok record =>
      match ← storedLock with
      | .error e => return .error (.store e)
      | .ok lock =>
        match ← storedBlockRules with
        | .error e => return .error (.store e)
        | .ok blocks =>
          match ← storedRedirectRules with
          | .error e => return .error (.store e)
          | .ok redirects =>
            return .ok
              ⟨url, c.managedUrl?.isSome, record, lock.status, blocks.length, redirects.length⟩

/-- The JSON of a status. -/
def Status.toJson (s : Status) : Json.Value :=
  .record
    [("policyUrl", Json.toJson s.policyUrl), ("managed", .bool s.managed),
      ("telemetry", Json.toJson s.record), ("lockStatus", Json.toJson s.lockStatus),
      ("blockRules", .ofNat s.blockRules), ("redirectRules", .ofNat s.redirectRules)]

end NavPolicy.Agent
