import NavPolicy.Pattern
import NavPolicy.Redirect

/-!
# Matching redirect rules

A matcher holds redirect rules with their patterns ready for use, in the order of the policy.  Rules
whose text is no pattern are left out.
-/

namespace NavPolicy

/-- Redirect rules with their patterns. -/
structure Matcher where
  entries : List (Pattern × RedirectRule)
  deriving DecidableEq

namespace Matcher

/-- The matcher without rules. -/
def empty : Matcher := ⟨[]⟩

/-- The rule with its pattern, if it has one. -/
def entry? (r : RedirectRule) : Option (Pattern × RedirectRule) :=
  match Pattern.compile r.pattern with
  | .ok p => some (p, r)
  | .error _ => none

/-- The notice about a rule that has no pattern. -/
def refusal? (r : RedirectRule) : Option Notice :=
  match Pattern.compile r.pattern with
  | .ok _ => none
  | .error e => some (.warn s!"Skipping redirect rule: {e.message}")

/-- The matcher of rules. -/
def ofRules (rules : List RedirectRule) : Matcher := ⟨rules.filterMap entry?⟩

/-- The notices about rules that a matcher leaves out. -/
def refusals (rules : List RedirectRule) : List Notice := rules.filterMap refusal?

/-- The number of rules. -/
def size (m : Matcher) : Nat := m.entries.length

/-- The rules that match a URL, in order. -/
def matching (m : Matcher) (url : String) : List RedirectRule :=
  (m.entries.filter fun (p, _) => p.accepts url).map (·.2)

/-- The first rule that matches a URL. -/
def first? (m : Matcher) (url : String) : Option RedirectRule := (m.matching url).head?

end Matcher

end NavPolicy
