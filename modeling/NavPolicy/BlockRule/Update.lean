import NavPolicy.BlockRule
import NavPolicy.Table

/-!
# Updates of installed rules

An update tells a filtering engine which rule numbers to remove and which rules to add, both at once.
`BlockRule.reconcile` finds the update that takes installed rules to new ones and touches no rule that
is installed already.

## Main operations

* `RuleUpdate.apply`      — the rules after an update, ascending in their number,
* `BlockRule.reconcile`   — the update from installed rules to new ones,
* `RuleUpdate.clearing`   — the update that removes all installed rules.
-/

namespace NavPolicy

/-- Rule numbers to remove, each once in ascending order, and rules to add. -/
structure RuleUpdate where
  removals : List UInt32
  additions : List BlockRule
  ascending : Table.Ascending id removals
  deriving DecidableEq

namespace RuleUpdate

/-- The update with these removals, in any order, and these additions. -/
def ofLists (removals : List UInt32) (additions : List BlockRule) : RuleUpdate :=
  ⟨Table.ofList id removals, additions, Table.ascending_ofList id removals⟩

/-- Whether the update changes nothing. -/
def isEmpty (u : RuleUpdate) : Bool := u.removals.isEmpty && u.additions.isEmpty

/-- The installed rules that the update does not remove. -/
def kept (u : RuleUpdate) (installed : List BlockRule) : List BlockRule :=
  installed.filter fun r => r.id ∉ u.removals

/-- The rules after the update: of each number the last added rule, else the last kept one. -/
def apply (u : RuleUpdate) (installed : List BlockRule) : List BlockRule :=
  Table.putAll BlockRule.id u.additions (Table.ofList BlockRule.id (u.kept installed))

end RuleUpdate

namespace BlockRule

/-- The pattern that new rules want under a number: that of the last rule with the number. -/
def wanted? (newRules : List BlockRule) (id : UInt32) : Option String :=
  (newRules.findRev? (·.id = id)).map pattern

/-- The installed rules that have to go, given the numbers of those before them that may stay: a rule
may stay if it is wanted as it is and no rule with its number was met before. -/
def outdated (newRules : List BlockRule) (staying : List UInt32) : List BlockRule → List UInt32
  | [] => []
  | r :: rs =>
    if wanted? newRules r.id = some r.pattern ∧ r.id ∉ staying then
      outdated newRules (r.id :: staying) rs
    else r.id :: outdated newRules staying rs

/-- The update that takes installed rules to new ones.  A number that has to go for any reason goes
with all its rules, and what is wanted under it is added anew. -/
def reconcile (installed newRules : List BlockRule) : RuleUpdate :=
  let removals := outdated newRules [] installed
  let stays (r : BlockRule) : Bool :=
    r.id ∉ removals && installed.any fun s => s.id = r.id
  .ofLists removals (newRules.filter fun r => !stays r)

end BlockRule

/-- The update that removes all installed rules. -/
def RuleUpdate.clearing (installed : List BlockRule) : RuleUpdate := BlockRule.reconcile installed []

instance : Json.Persisted RuleUpdate where
  toJson u := .record
    [("remove_ids", Json.toJson u.removals), ("add_rules", Json.toJson u.additions)]
  ofJson v := do
    let fields ← Json.Record.ofValue ["remove_ids", "add_rules"] v
    return .ofLists (← fields.required "remove_ids") (← fields.required "add_rules")

end NavPolicy
