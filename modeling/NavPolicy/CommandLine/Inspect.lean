import NavPolicy.Agent.Operations
import NavPolicy.BlockRule.Declarative
import NavPolicy.CommandLine.Request
import NavPolicy.Store.File

/-!
# Inspecting policy files

The commands that look at a policy file: compiling it, checking a secret against its lock, and showing
how it treats a URL.  A command is a program, since showing how a URL is treated may ask remote pages;
it comes to lines to print or to the reason why it fails.
-/

namespace NavPolicy.CommandLine

open Agent (Program)
open Agent.Program (perform notes)

/-- What a command comes to: the lines that it prints, or why it fails. -/
abbrev Outcome := Except String (List String)

/-! ## Secrets -/

/-- The digest of a secret. -/
def hashSecret (secret : String) : Outcome :=
  if secret = "" then .error "Secret must not be empty" else .ok [Digest.ofText secret]

/-! ## Policy files -/

/-- The policy that a file holds. -/
def loadPolicy (file : String) : FoundFile → Except String PolicyDocument
  | .error e => .error s!"Failed to read '{file}': {e.message}"
  | .ok text =>
    (PolicyDocument.ofText text).mapError fun e => s!"Invalid policy '{file}': {e.message}"

/-- The notices of compiling a policy file; `elapsed` tells the milliseconds that it took. -/
def loadNotices (file elapsed : String) (doc : PolicyDocument) : List Notice :=
  let s := doc.stats
  doc.notices ++
    [.info <| s!"Compiled '{file}' in {elapsed}ms entries={s.entries} skipped={s.skipped} " ++
      s!"block={s.blockRules} redirect={s.redirectRules}"]

/-- What compiling prints. -/
def compiledText (p : CompiledPolicy) : OutputFormat → String
  | .policy => (Json.toJson p).indented
  | .declarative =>
    (Json.Value.array (p.blockRules.map fun r => r.declarative.toJson)).indented

/-- Checks a secret against a lock. -/
def verifySecret (lock : AccessLock) (secret : String) : Outcome :=
  if !lock.isLocked then .error "Policy is not locked"
  else if AccessLock.accepts secret lock.digest then .ok ["Secret accepted"]
  else .error "Secret rejected"

/-! ## The treatment of a URL -/

/-- How a policy treats a URL. -/
inductive Treatment where
  | blocked (rule : BlockRule)
  | unmatched
  | redirected (pattern target : String)
  | targetless
  deriving DecidableEq, Repr

/-- The treatment in words. -/
def Treatment.text : Treatment → String
  | blocked rule => s!"Blocked by rule #{rule.id.toNat} ({rule.pattern})"
  | unmatched => "No rule matches"
  | redirected pattern target => s!"Redirect by '{pattern}' to {target}"
  | targetless => "Matched, but no redirect target is available; navigation proceeds"

/-- The first block rule that matches a URL. -/
def blockingRule? (rules : List BlockRule) (url : String) : Option BlockRule :=
  rules.find? fun r => (Engine.pattern? r).any (·.accepts url)

/-- The target of a rule: with probing the first usable one, and else the first. -/
def target? (probing : Bool) (c : Config) (rule : RedirectRule) : Program (Option String) :=
  if probing then Agent.resolve c rule.candidates
  else return (Candidate.firstUsable (fun _ _ => true) 0 rule.candidates).target

/-- The treatment by the first of the rules that has a target. -/
def firstRedirect (probing : Bool) (c : Config) : List RedirectRule → Program Treatment
  | [] => return .targetless
  | rule :: rules => do
    match ← target? probing c rule with
    | some target => return .redirected rule.pattern target
    | none => firstRedirect probing c rules

/-- How a policy treats a URL. -/
def treatment (p : CompiledPolicy) (url : String) (probing : Bool) (timeoutMs : UInt64) :
    Program Treatment :=
  match blockingRule? p.blockRules url with
  | some rule => return .blocked rule
  | none => do
    notes (Matcher.refusals p.redirectRules)
    match (Matcher.ofRules p.redirectRules).matching url with
    | [] => return .unmatched
    | rules => firstRedirect probing { Config.default with probeTimeoutMs := timeoutMs } rules

/-! ## The commands -/

/-- Does something with the policy that was loaded from a file. -/
def withPolicy (file elapsed : String) (loaded : Except String PolicyDocument)
    (act : CompiledPolicy → Program Outcome) : Program Outcome :=
  match loaded with
  | .error e => return .error e
  | .ok doc => do
    notes (loadNotices file elapsed doc)
    act doc.compile

/-- Compiles a policy file. -/
def compileFile (file elapsed : String) (loaded : Except String PolicyDocument)
    (format : OutputFormat) : Program Outcome :=
  withPolicy file elapsed loaded fun p => return .ok [compiledText p format]

/-- Checks a secret against a policy file's lock. -/
def verifyFile (file elapsed : String) (loaded : Except String PolicyDocument) (secret : String) :
    Program Outcome :=
  withPolicy file elapsed loaded fun p => return verifySecret p.lock secret

/-- Shows how a policy file treats a URL. -/
def checkFile (file elapsed : String) (loaded : Except String PolicyDocument) (url : String)
    (probing : Bool) (timeoutMs : UInt64) : Program Outcome :=
  withPolicy file elapsed loaded fun p => do
    return .ok [(← treatment p url probing timeoutMs).text]

end NavPolicy.CommandLine
