import NavPolicy.BlockRule.Update

/-!
# Declarative filtering rules

Browsers take block rules in a declarative form: a number, a priority, an action, and a condition on
the URL and on the kinds of resource.  This module renders rules and updates in that form.
-/

namespace NavPolicy

/-- The kinds of resource that a block rule covers. -/
def blockedResources : List String :=
  ["main_frame", "sub_frame", "script", "xmlhttprequest", "image", "stylesheet", "object", "other"]

/-- A rule in declarative form. -/
structure DeclarativeRule where
  id : UInt32
  priority : UInt32
  action : String
  urlFilter : String
  resourceTypes : List String
  deriving DecidableEq, Repr

/-- An update in declarative form. -/
structure DeclarativeUpdate where
  removeRuleIds : List UInt32
  addRules : List DeclarativeRule
  deriving DecidableEq, Repr

/-- The declarative form of a rule. -/
def BlockRule.declarative (r : BlockRule) : DeclarativeRule :=
  ⟨r.id, 1, "block", r.pattern, blockedResources⟩

/-- The declarative form of an update. -/
def RuleUpdate.declarative (u : RuleUpdate) : DeclarativeUpdate :=
  ⟨u.removals, u.additions.map BlockRule.declarative⟩

/-- The JSON of a declarative rule. -/
def DeclarativeRule.toJson (r : DeclarativeRule) : Json.Value :=
  .record
    [("id", Json.toJson r.id), ("priority", Json.toJson r.priority),
      ("action", .record [("type", Json.toJson r.action)]),
      ("condition", .record
        [("urlFilter", Json.toJson r.urlFilter), ("resourceTypes", Json.toJson r.resourceTypes)])]

/-- The JSON of a declarative update. -/
def DeclarativeUpdate.toJson (u : DeclarativeUpdate) : Json.Value :=
  .record
    [("removeRuleIds", Json.toJson u.removeRuleIds),
      ("addRules", .array (u.addRules.map DeclarativeRule.toJson))]

end NavPolicy
