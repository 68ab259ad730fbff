import NavPolicy.CommandLine.Arguments
import NavPolicy.Text.Digits

/-!
# Requests on the command line

What the command line can be asked for, and how a request is read off its arguments: the first argument
names a command, the others are the command's own.
-/

namespace NavPolicy.CommandLine

/-- What compiling prints. -/
inductive OutputFormat where
  /-- The compiled policy. -/
  | policy
  /-- Its block rules in declarative form. -/
  | declarative
  deriving DecidableEq, Repr

/-- How the agent is to be run. -/
structure RunOptions where
  /-- The file with the configuration. -/
  config : Option String
  /-- A policy URL to set first. -/
  policyUrl : Option String
  /-- The password for setting it. -/
  password : Option String
  /-- The file that keeps the state, in place of the configured one. -/
  state : Option String
  deriving DecidableEq, Repr

/-- What the command line is asked for. -/
inductive Request where
  /-- Compiles a policy file. -/
  | compile (input : String) (format : OutputFormat)
  /-- Prints the digest of a secret. -/
  | hash (secret : String)
  /-- Checks a secret against a policy file's lock. -/
  | verify (input secret : String)
  /-- Shows how a policy file treats a URL. -/
  | check (input url : String) (probing : Bool) (timeoutMs : UInt64)
  /-- Runs the agent. -/
  | run (options : RunOptions)
  deriving DecidableEq, Repr

/-! ## The commands -/

/-- Compiling a policy file. -/
def compileForm : CommandForm :=
  ⟨"compile", [.valued "input" (some 'i'), .valued "format" (some 'f')], []⟩

/-- Printing a digest. -/
def hashForm : CommandForm := ⟨"hash", [], ["SECRET"]⟩

/-- Checking a secret. -/
def verifyForm : CommandForm := ⟨"verify", [.valued "input" (some 'i')], ["SECRET"]⟩

/-- Showing how a URL is treated. -/
def checkForm : CommandForm :=
  ⟨"check",
    [.valued "input" (some 'i'), .flag "no-probe", .valued "probe-timeout-ms" none], ["URL"]⟩

/-- Running the agent. -/
def runForm : CommandForm :=
  ⟨"run",
    [.valued "config" (some 'c'), .valued "policy-url" none, .valued "password" none,
      .valued "state" none], []⟩

/-! ## Values -/

/-- The name of a file, which may not be empty. -/
def fileName (option text : String) : Except UsageError String :=
  if text = "" then .error (.invalidValue option text) else .ok text

/-- The output format of a name. -/
def outputFormat (option : String) : String → Except UsageError OutputFormat
  | "json" => .ok .policy
  | "dnr" => .ok .declarative
  | text => .error (.invalidValue option text)

/-- The digits of a number after a sign that may stand before them. -/
def unsignedDigits : List Char → List Char
  | '+' :: ds => ds
  | ds => ds

/-- A number of milliseconds. -/
def milliseconds (option text : String) : Except UsageError UInt64 :=
  match Text.readNat? (unsignedDigits text.toList) with
  | some n => if n < UInt64.size then .ok (.ofNat n) else .error (.invalidValue option text)
  | none => .error (.invalidValue option text)

/-- The name of a file that may be left out. -/
def optionalFile (a : Arguments) (option : String) : Except UsageError (Option String) :=
  match a.value? option with
  | none => .ok none
  | some text => (fileName option text).map some

namespace Request

/-- The input file of a command. -/
def input (a : Arguments) : Except UsageError String := do
  fileName "input" (← a.required "input")

/-- Reads the arguments of a command. -/
def ofCommand (command : String) (texts : List String) : Except UsageError Request :=
  match command with
  | "compile" => do
    let a ← Arguments.ofList compileForm texts
    let format ← outputFormat "format" ((a.value? "format").getD "json")
    return .compile (← input a) format
  | "hash" => do
    let a ← Arguments.ofList hashForm texts
    return .hash (← a.operand hashForm 0)
  | "verify" => do
    let a ← Arguments.ofList verifyForm texts
    return .verify (← input a) (← a.operand verifyForm 0)
  | "check" => do
    let a ← Arguments.ofList checkForm texts
    let timeout ← milliseconds "probe-timeout-ms" ((a.value? "probe-timeout-ms").getD "5000")
    return .check (← input a) (← a.operand checkForm 0) (!a.has "no-probe") timeout
  | "run" => do
    let a ← Arguments.ofList runForm texts
    return .run ⟨← optionalFile a "config", a.value? "policy-url", a.value? "password",
      ← optionalFile a "state"⟩
  | name =>
    match Shape.ofText name with
    | .plain => .error (.unknownCommand name)
    | _ => .error (.unexpectedArgument name)

/-- The request that arguments make. -/
def ofArguments : List String → Except UsageError Request
  | [] => .error .noCommand
  | command :: texts => ofCommand command texts

end Request

end NavPolicy.CommandLine
