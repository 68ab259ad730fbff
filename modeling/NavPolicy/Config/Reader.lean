import NavPolicy.Config
import NavPolicy.Text.Blank
import NavPolicy.Yaml.Value

/-!
# Reading configurations

A configuration is a mapping from the names of settings to scalars.  Settings are read by what they are
to be: a text takes any scalar, an optional one is absent for a plain null, and a number takes plain
integers.  Unknown settings are skipped with all they hold.  A blank text and an empty document stand
for the defaults.
-/

namespace NavPolicy

/-- Why a configuration cannot be had. -/
inductive ConfigError where
  | io (message : String)
  | yaml (e : Yaml.Error)
  deriving DecidableEq, Repr

/-- The wording of an error. -/
def ConfigError.message : ConfigError → String
  | io message => s!"IO error: {message}"
  | yaml e => s!"YAML parse error: {e.message}"

namespace Config

open Yaml (Node Document)

/-- The node with its alias followed, if it is one. -/
def followed (d : Document) (node : Node) : Node :=
  match node with
  | .reference n => (d.target? n).getD node
  | node => node

/-- The text of a scalar. -/
def text (d : Document) (node : Node) : Except Yaml.Error String :=
  match followed d node with
  | .scalar _ _ text => .ok text
  | _ => .error (.unexpectedNode "a string")

/-- The text of a scalar, absent for a plain null. -/
def optionalText (d : Document) (node : Node) : Except Yaml.Error (Option String) :=
  match followed d node with
  | .scalar props .plain text =>
    let isNull := Yaml.Plain.isNull text.toList
    match props.tag with
    | none => .ok (if text = "" || isNull then none else some text)
    | some (.core .null) => if isNull then .ok none else .error (.wrongScalar "null")
    | some _ => .ok (some text)
  | .scalar _ _ text => .ok (some text)
  | _ => .error (.unexpectedNode "a string")

/-- The number of a scalar that is plain, or literal with the tag of integers. -/
def number (d : Document) (node : Node) : Except Yaml.Error UInt64 :=
  let read (text : String) :=
    match Yaml.Plain.unsigned? (UInt64.size - 1) text.toList with
    | some n => .ok (.ofNat n)
    | none => .error (.unexpectedNode "an unsigned integer")
  match followed d node with
  | .scalar _ .plain text => read text
  | .scalar props .literal text =>
    if props.tag = some (.core .int) then read text
    else .error (.unexpectedNode "an unsigned integer")
  | _ => .error (.unexpectedNode "an unsigned integer")

/-- The settings with one more set; unknown ones change nothing. -/
def setting (d : Document) (c : Config) (name : String) (node : Node) :
    Except Yaml.Error Config :=
  match name with
  | "managed_policy_url" =>
    (optionalText d node).map fun x => { c with managedPolicyUrl := x }
  | "state_path" => (optionalText d node).map fun x => { c with statePath := x }
  | "refresh_delay_secs" => (number d node).map fun n => { c with refreshDelaySecs := n }
  | "refresh_period_secs" => (number d node).map fun n => { c with refreshPeriodSecs := n }
  | "probe_timeout_ms" => (number d node).map fun n => { c with probeTimeoutMs := n }
  | "fetch_timeout_ms" => (number d node).map fun n => { c with fetchTimeoutMs := n }
  | _ => .ok c

/-- Sets what the entries of a mapping say; `seen` holds the settings that have been set. -/
def settings (d : Document) (c : Config) (seen : List String) :
    List (Node × Node) → Except Yaml.Error Config
  | [] => .ok c
  | (key, value) :: entries => do
    let name ← text d key
    if name ∈ seen then throw .repeatedKey
    let c ← setting d c name value
    settings d c (if name ∈ settingNames then name :: seen else seen) entries

/-- The settings that a document gives. -/
def ofDocument (d : Document) : Except Yaml.Error Config :=
  match d.root with
  | none => .ok default
  | some root =>
    match followed d root with
    | .mapping _ entries => settings d default [] entries
    | .scalar _ .plain "" => .ok default
    | _ => .error (.unexpectedNode "a mapping")

/-- The settings that a text gives. -/
def ofText (text : String) : Except ConfigError Config :=
  if (Text.trim text.toList).isEmpty then .ok default
  else
    match (do ofDocument (← Document.ofText text) : Except Yaml.Error Config) with
    | .ok c => .ok c
    | .error e => .error (.yaml e)

end Config

end NavPolicy
