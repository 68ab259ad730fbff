import NavPolicy.BlockRule.Update
import NavPolicy.Notice
import NavPolicy.Pattern

/-!
# The filtering engine

The engine holds the block rules in force, ascending in their number, and for each of them its
pattern, unless its text is none.  It takes an update whole or refuses it: an update is refused when
it would leave two rules under one number.
-/

namespace NavPolicy

/-- The rules in force and, slot for slot, their patterns. -/
structure Engine where
  rules : List BlockRule
  patterns : List (Option Pattern)
  deriving DecidableEq

/-- Why the engine does not do what it is asked. -/
inductive EngineError where
  /-- Two rules would stand under one number. -/
  | repeatedId (id : UInt32)
  /-- The engine gives a reason of its own. -/
  | refused (reason : String)
  deriving DecidableEq, Repr

/-- The wording of a refusal. -/
def EngineError.message : EngineError → String
  | repeatedId id => s!"Rule update rejected: duplicate rule id {id.toNat}"
  | refused reason => s!"Rule update rejected: {reason}"

namespace Engine

/-- The engine without rules. -/
def empty : Engine := ⟨[], []⟩

/-- The pattern of a rule, if its text is one. -/
def pattern? (r : BlockRule) : Option Pattern := (Pattern.compile r.pattern).toOption

/-- The notice about a rule whose text is no pattern. -/
def refusal? (r : BlockRule) : Option Notice :=
  match Pattern.compile r.pattern with
  | .ok _ => none
  | .error e => some (.warn s!"Block rule {r.id.toNat} cannot be evaluated: {e.message}")

/-- The engine with these rules in force. -/
def holding (rules : List BlockRule) : Engine := ⟨rules, rules.map pattern?⟩

/-- The first number that occurs a second time, after those in `seen`. -/
def firstRepeated? (seen : List UInt32) : List BlockRule → Option UInt32
  | [] => none
  | r :: rs => if r.id ∈ seen then some r.id else firstRepeated? (r.id :: seen) rs

/-- The engine after an update.  Every rule that is kept or added has a place of its own in the result
unless a number occurs twice, so it is enough to count. -/
def apply (u : RuleUpdate) (e : Engine) : Except EngineError Engine :=
  let next := u.apply e.rules
  let all := u.kept e.rules ++ u.additions
  if next.length = all.length then .ok (holding next)
  else .error (.repeatedId ((firstRepeated? [] all).getD 0))

/-- The notices about rules in force that cannot match. -/
def refusals (e : Engine) : List Notice := e.rules.filterMap refusal?

/-- The first rule in force that matches a URL. -/
def blockingRule? (e : Engine) (url : String) : Option BlockRule :=
  ((e.rules.zip e.patterns).find? fun (_, p) => p.any (·.accepts url)).map (·.1)

end Engine

end NavPolicy
