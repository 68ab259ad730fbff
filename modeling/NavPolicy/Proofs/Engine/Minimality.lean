import NavPolicy.Proofs.BlockRule.Difference
import NavPolicy.Proofs.Engine.Refusal

/-!
# Reconciling gives the least update

Many updates take an engine from its rules to new ones: one may remove rules and add them again as they
were.  But an engine refuses two rules of one number, so an installed rule that is not among the new ones
has to be removed, even where a new one is to take its number, and a new rule that is not installed has
to be added.  Reconciling asks for no more than that (`reconcile_least`).
-/

namespace NavPolicy.Engine

/-- Whether an engine accepts an update and then holds just these rules. -/
def TakesTo (e : Engine) (u : RuleUpdate) (rules : List BlockRule) : Prop :=
  ∃ e', e.apply u = .ok e' ∧ ∀ r, r ∈ e'.rules ↔ r ∈ rules

/-- An engine that has accepted an update holds the rules that it keeps and those that it adds. -/
theorem mem_of_apply_eq_ok {u : RuleUpdate} {e e' : Engine} {r : BlockRule}
    (h : e.apply u = .ok e') : r ∈ e'.rules ↔ r ∈ u.kept e.rules ∨ r ∈ u.additions := by
  have hnodup : ((u.kept e.rules ++ u.additions).map BlockRule.id).Nodup := by
    by_contra hrepeated
    obtain ⟨s, -, herror⟩ := apply_of_not_nodup hrepeated
    exact absurd (herror.symm.trans h) (by simp)
  rw [eq_holding_of_apply h, ← List.mem_append]
  exact (apply_perm_of_nodup hnodup).mem_iff

/-- Of an update that takes an engine to new rules, an installed rule is kept only if it is one of
them. -/
theorem TakesTo.mem_of_not_removed {e : Engine} {u : RuleUpdate} {rules : List BlockRule}
    (h : e.TakesTo u rules) {r : BlockRule} (hr : r ∈ e.rules) (hstays : r.id ∉ u.removals) :
    r ∈ rules := by
  obtain ⟨e', happly, hrules⟩ := h
  exact (hrules r).1 ((mem_of_apply_eq_ok happly).2 (.inl (RuleUpdate.mem_kept.2 ⟨hr, hstays⟩)))

/-- Of an update that takes an engine to new rules, a new rule is added if it is not installed. -/
theorem TakesTo.mem_additions {e : Engine} {u : RuleUpdate} {rules : List BlockRule}
    (h : e.TakesTo u rules) {r : BlockRule} (hr : r ∈ rules) (hnew : r ∉ e.rules) :
    r ∈ u.additions := by
  obtain ⟨e', happly, hrules⟩ := h
  rcases (mem_of_apply_eq_ok happly).1 ((hrules r).2 hr) with hkept | hadded
  · exact absurd (RuleUpdate.mem_kept.1 hkept).1 hnew
  · exact hadded

/-- The update of reconciling takes an engine to the new rules, if their numbers are distinct. -/
theorem takesTo_reconcile (e : Engine) {newRules : List BlockRule}
    (hnew : (newRules.map BlockRule.id).Nodup) :
    e.TakesTo (BlockRule.reconcile e.rules newRules) newRules := by
  refine ⟨_, apply_of_nodup (BlockRule.nodup_reconciled _ _ hnew), fun r => ?_⟩
  show r ∈ (BlockRule.reconcile e.rules newRules).apply e.rules ↔ r ∈ newRules
  rw [BlockRule.apply_reconcile]
  exact (Table.ofList_perm hnew).mem_iff

/-- For an engine whose rules have distinct numbers, and new rules that do, the update of reconciling is
the least of all updates that the engine accepts and that leave it with just the new rules: each of them
removes every number that it removes and adds every rule that it adds.  A rule that is installed with the
number and the pattern of a new one is neither removed nor added. -/
theorem reconcile_least {e : Engine} {newRules : List BlockRule}
    (hinstalled : (e.rules.map BlockRule.id).Nodup) (hnew : (newRules.map BlockRule.id).Nodup) :
    let least := BlockRule.reconcile e.rules newRules
    e.TakesTo least newRules ∧
      (∀ u, e.TakesTo u newRules →
        (∀ id ∈ least.removals, id ∈ u.removals) ∧ ∀ r ∈ least.additions, r ∈ u.additions) ∧
      ∀ r ∈ e.rules, r ∈ newRules → r.id ∉ least.removals ∧ r ∉ least.additions := by
  intro least
  refine ⟨takesTo_reconcile e hnew, fun u hu => ⟨fun id hid => ?_, fun r hr => ?_⟩, fun r hr hmem => ?_⟩
  · obtain ⟨r, hr, rfl, hgone⟩ := (BlockRule.mem_removals_reconcile_iff hinstalled hnew).1 hid
    by_contra hstays
    exact hgone (hu.mem_of_not_removed hr hstays)
  · obtain ⟨hmem, hmissing⟩ := (BlockRule.mem_additions_reconcile_iff hinstalled hnew).1 hr
    exact hu.mem_additions hmem hmissing
  · refine ⟨BlockRule.not_mem_removals_reconcile hinstalled hnew hr hmem, fun hadded => ?_⟩
    exact ((BlockRule.mem_additions_reconcile_iff hinstalled hnew).1 hadded).2 hr

/-- Removing everything and adding all new rules is another update to them, which removes the rule that
could stay and adds it again. -/
theorem reconcile_least_of_fresh :
    let e : Engine := .holding [⟨1, "*ads*"⟩, ⟨2, "*old*"⟩, ⟨3, "*stale*"⟩]
    let newRules : List BlockRule := [⟨1, "*ads*"⟩, ⟨2, "*new*"⟩, ⟨4, "*more*"⟩]
    let u : RuleUpdate := .ofLists [1, 2, 3] newRules
    let least := BlockRule.reconcile e.rules newRules
    (e.rules.map BlockRule.id).Nodup ∧ (newRules.map BlockRule.id).Nodup ∧ e.TakesTo u newRules ∧
      (least.removals, least.additions) = ([2, 3], [⟨2, "*new*"⟩, ⟨4, "*more*"⟩]) ∧
      (∀ id ∈ least.removals, id ∈ u.removals) ∧ ∀ r ∈ least.additions, r ∈ u.additions := by
  intro e newRules u least
  have hinstalled : (e.rules.map BlockRule.id).Nodup := by decide
  have hnew : (newRules.map BlockRule.id).Nodup := by decide
  have hrules : u.apply e.rules = newRules := by decide
  have hu : e.TakesTo u newRules :=
    ⟨_, apply_of_nodup (by decide), fun r => by rw [hrules]; rfl⟩
  exact ⟨hinstalled, hnew, hu, by decide, (reconcile_least hinstalled hnew).2.1 u hu⟩

end NavPolicy.Engine
