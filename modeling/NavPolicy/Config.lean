import NavPolicy.Json.Persisted

/-!
# Configuration of the agent

What an administrator may set: where the policy comes from, where state is kept, when to refresh, and
how long to wait for answers.  Every setting has a default.
-/

namespace NavPolicy

/-- The settings of the agent. -/
structure Config where
  /-- The policy URL that an administrator has laid down. -/
  managedPolicyUrl : Option String
  /-- The file that keeps the state; without one nothing outlives the agent. -/
  statePath : Option String
  /-- Seconds before the first scheduled refresh. -/
  refreshDelaySecs : UInt64
  /-- Seconds between scheduled refreshes. -/
  refreshPeriodSecs : UInt64
  /-- Milliseconds that a remote page has for its answer. -/
  probeTimeoutMs : UInt64
  /-- Milliseconds that the policy source has for its answer. -/
  fetchTimeoutMs : UInt64
  deriving DecidableEq, Repr

namespace Config

/-- The settings that hold where nothing else is said. -/
def default : Config := ⟨none, none, 60, 600, 5000, 30000⟩

/-- The names of the settings. -/
def settingNames : List String :=
  ["managed_policy_url", "state_path", "refresh_delay_secs", "refresh_period_secs",
    "probe_timeout_ms", "fetch_timeout_ms"]

/-- The managed policy URL; an empty one is none. -/
def managedUrl? (c : Config) : Option String := c.managedPolicyUrl.filter (· ≠ "")

/-- Seconds between scheduled refreshes, never zero. -/
def refreshPeriod (c : Config) : Nat := max c.refreshPeriodSecs.toNat 1

end Config

instance : Inhabited Config := ⟨.default⟩

instance : Json.Persisted Config where
  toJson c := .record
    [("managed_policy_url", Json.toJson c.managedPolicyUrl),
      ("state_path", Json.toJson c.statePath),
      ("refresh_delay_secs", Json.toJson c.refreshDelaySecs),
      ("refresh_period_secs", Json.toJson c.refreshPeriodSecs),
      ("probe_timeout_ms", Json.toJson c.probeTimeoutMs),
      ("fetch_timeout_ms", Json.toJson c.fetchTimeoutMs)]
  ofJson v := do
    let fields ← Json.Record.ofValue Config.settingNames v
    let d := Config.default
    return ⟨← fields.optional "managed_policy_url" d.managedPolicyUrl,
      ← fields.optional "state_path" d.statePath,
      ← fields.optional "refresh_delay_secs" d.refreshDelaySecs,
      ← fields.optional "refresh_period_secs" d.refreshPeriodSecs,
      ← fields.optional "probe_timeout_ms" d.probeTimeoutMs,
      ← fields.optional "fetch_timeout_ms" d.fetchTimeoutMs⟩

end NavPolicy
