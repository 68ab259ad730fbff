import NavPolicy.Engine
import NavPolicy.Proofs.BlockRule.Reconcile

/-!
# What the engine accepts

The engine accepts an update when no number occurs twice among the rules that it keeps and adds, and it
then holds the rules after the update.  It always accepts what reconciling with rules of distinct
numbers gives, and the removal of everything.  Its two lists, of rules and of their patterns, are gone
through as one (`blockingRule?_holding`).
-/

namespace NavPolicy.Engine

/-- An update that leaves every number once is accepted. -/
theorem apply_of_nodup {u : RuleUpdate} {e : Engine}
    (h : ((u.kept e.rules ++ u.additions).map BlockRule.id).Nodup) :
    e.apply u = .ok (holding (u.apply e.rules)) := by
  have hlen : (u.apply e.rules).length = (u.kept e.rules ++ u.additions).length := by
    rw [RuleUpdate.apply_eq_ofList]
    exact Table.length_ofList_eq_iff.2 h
  rw [apply, if_pos hlen]

/-- The engine takes new rules of distinct numbers in place of whatever it holds. -/
theorem apply_reconcile (e : Engine) {newRules : List BlockRule}
    (h : Table.Ascending BlockRule.id newRules) :
    e.apply (BlockRule.reconcile e.rules newRules) = .ok (holding newRules) := by
  rw [apply_of_nodup (BlockRule.nodup_reconciled _ _ h.nodup_keys), BlockRule.apply_reconcile,
    Table.ofList_eq_self h]

/-- The engine lets all its rules be removed. -/
theorem apply_clearing (e : Engine) : e.apply (.clearing e.rules) = .ok (holding []) :=
  e.apply_reconcile List.Pairwise.nil

/-- An update that removes all rules is empty only if there are none. -/
theorem rules_eq_nil_of_isEmpty_clearing {e : Engine}
    (h : (RuleUpdate.clearing e.rules).isEmpty = true) : e.rules = [] := by
  have hremovals : (RuleUpdate.clearing e.rules).removals = [] := by
    rw [RuleUpdate.isEmpty, Bool.and_eq_true, List.isEmpty_iff] at h
    exact h.1
  rw [List.eq_nil_iff_forall_not_mem]
  intro r hr
  have hgo : r.id ∉ BlockRule.outdated [] [] e.rules := by
    rw [← BlockRule.mem_removals_reconcile, ← RuleUpdate.clearing, hremovals]
    exact List.not_mem_nil
  rcases BlockRule.filter_installed_of_not_outdated hgo with hnone | ⟨s, -, -, hwanted, -⟩
  · exact absurd (List.filter_eq_nil_iff.1 hnone r hr) (by simp [BlockRule.hasId])
  · exact absurd hwanted (by simp [BlockRule.wanted?])

/-- An engine blocks by the first of its rules whose pattern accepts. -/
theorem blockingRule?_holding (rules : List BlockRule) (url : String) :
    (holding rules).blockingRule? url =
      rules.find? fun r => (pattern? r).any fun p => p.accepts url := by
  rw [blockingRule?, holding]
  induction rules with
  | nil => rfl
  | cons r rules ih =>
    rw [List.map_cons, List.zip_cons_cons, List.find?_cons, List.find?_cons]
    dsimp only
    cases (pattern? r).any fun p => p.accepts url with
    | true => rfl
    | false => exact ih

end NavPolicy.Engine
