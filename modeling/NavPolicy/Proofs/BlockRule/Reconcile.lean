import Mathlib.Data.List.Count
import NavPolicy.BlockRule.Update
import NavPolicy.Proofs.Table

/-!
# What reconciling comes to

`BlockRule.reconcile` is understood number by number.  Of the rules that are kept or added, those with
a given number are either exactly the new ones with that number, or a single kept one that is the last
new one with the number (`filter_reconciled`).  Hence the rules after the update are the table of the
new rules, whatever was installed (`apply_reconcile`), and no number occurs twice among the kept and the
added rules if none occurs twice among the new ones (`nodup_reconciled`).
-/

namespace NavPolicy

namespace RuleUpdate

/-- The removals of an update are those it was given. -/
theorem mem_removals_ofLists {n : UInt32} {removals : List UInt32} {additions : List BlockRule} :
    n ∈ (ofLists removals additions).removals ↔ n ∈ removals := by
  have h : n ∈ (Table.ofList id removals).map id ↔ n ∈ removals.map id := Table.mem_keys_ofList
  rwa [List.map_id, List.map_id] at h

/-- The kept rules are the installed ones whose number is not removed. -/
theorem mem_kept {u : RuleUpdate} {installed : List BlockRule} {r : BlockRule} :
    r ∈ u.kept installed ↔ r ∈ installed ∧ r.id ∉ u.removals := by
  rw [kept, List.mem_filter, decide_eq_true_eq]

/-- The rules after an update are the table of the kept and the added ones. -/
theorem apply_eq_ofList (u : RuleUpdate) (installed : List BlockRule) :
    u.apply installed = Table.ofList BlockRule.id (u.kept installed ++ u.additions) := by
  rw [apply, Table.ofList, Table.ofList, Table.putAll, Table.putAll, Table.putAll,
    List.foldl_append]

end RuleUpdate

namespace BlockRule

/-- Whether the rule has a number. -/
def hasId (id : UInt32) (r : BlockRule) : Bool := r.id = id

/-- A lookup in the table of some rules finds the last of them with the number. -/
theorem find?_ofList_eq_getLast? (id : UInt32) (rules : List BlockRule) :
    Table.find? BlockRule.id id (Table.ofList BlockRule.id rules) =
      (rules.filter (hasId id)).getLast? := by
  rw [Table.find?_ofList, List.findRev?_eq_find?_reverse, List.getLast?_filter]
  rfl

/-- The last new rule with a number has the pattern that is wanted under it. -/
theorem getLast?_filter_of_wanted {newRules : List BlockRule} {r : BlockRule}
    (h : wanted? newRules r.id = some r.pattern) :
    (newRules.filter (hasId r.id)).getLast? = some r := by
  obtain ⟨s, hs, hpattern⟩ := Option.map_eq_some_iff.1 h
  have hid : s.id = r.id := by
    rw [List.findRev?_eq_find?_reverse] at hs
    simpa using List.find?_some hs
  have hrs : s = r := by
    cases s
    cases r
    simp_all
  rw [List.getLast?_filter, ← List.findRev?_eq_find?_reverse, ← hrs, ← hs, hrs]
  rfl

/-- A number that does not have to go stands at one installed rule at most, which is wanted as it is,
and was not met before. -/
theorem filter_installed_of_not_outdated {newRules installed : List BlockRule}
    {staying : List UInt32} {id : UInt32} (h : id ∉ outdated newRules staying installed) :
    installed.filter (hasId id) = [] ∨
      ∃ r, installed.filter (hasId id) = [r] ∧ r.id = id ∧
        wanted? newRules r.id = some r.pattern ∧ id ∉ staying := by
  induction installed generalizing staying with
  | nil => exact Or.inl rfl
  | cons r rs ih =>
    rw [outdated] at h
    split at h
    · rename_i hstays
      -- the rule stays, so its number counts as met for those after it
      rcases ih h with hnone | ⟨s, hs, hid, hwanted, hmet⟩
      · by_cases hr : r.id = id
        · refine Or.inr ⟨r, ?_, hr, hstays.1, hr ▸ hstays.2⟩
          rw [List.filter_cons_of_pos (by simp [hasId, hr]), hnone]
        · rw [List.filter_cons_of_neg (by simp [hasId, hr])]
          exact Or.inl hnone
      · have hr : r.id ≠ id := fun hr => hmet (by simp [hr])
        rw [List.filter_cons_of_neg (by simp [hasId, hr])]
        exact Or.inr ⟨s, hs, hid, hwanted, fun hmem => hmet (List.mem_cons_of_mem _ hmem)⟩
    · rw [List.mem_cons, not_or] at h
      rw [List.filter_cons_of_neg (by simpa [hasId] using Ne.symm h.1)]
      exact ih h.2

variable (installed newRules : List BlockRule)

/-- The removed numbers are those that have to go. -/
theorem mem_removals_reconcile {id : UInt32} :
    id ∈ (reconcile installed newRules).removals ↔ id ∈ outdated newRules [] installed :=
  RuleUpdate.mem_removals_ofLists

/-- The kept rules with a number: all the installed ones, unless the number has to go. -/
theorem filter_kept_reconcile (id : UInt32) :
    ((reconcile installed newRules).kept installed).filter (hasId id) =
      if id ∈ outdated newRules [] installed then [] else installed.filter (hasId id) := by
  rw [RuleUpdate.kept, List.filter_filter]
  split
  · rename_i hgo
    rw [List.filter_eq_nil_iff]
    intro r _
    have hr : r.id = id → r.id ∈ (reconcile installed newRules).removals := fun hid =>
      (mem_removals_reconcile installed newRules).2 (hid ▸ hgo)
    simpa [hasId] using hr
  · rename_i hstay
    refine List.filter_congr fun r _ => ?_
    have hr : r.id = id → r.id ∉ (reconcile installed newRules).removals := fun hid hmem =>
      hstay (hid ▸ (mem_removals_reconcile installed newRules).1 hmem)
    by_cases hid : r.id = id
    · simp [hasId, hid, hid ▸ hr hid]
    · simp [hasId, hid]

/-- The added rules are the new ones without those whose number is installed and stays. -/
theorem additions_reconcile : (reconcile installed newRules).additions = newRules.filter fun r =>
    !(decide (r.id ∉ outdated newRules [] installed) && installed.any fun s => s.id = r.id) := rfl

/-- The added rules with a number: all the new ones, unless an installed one stays. -/
theorem filter_additions_reconcile (id : UInt32) :
    (reconcile installed newRules).additions.filter (hasId id) =
      if id ∉ outdated newRules [] installed ∧ installed.filter (hasId id) ≠ [] then []
      else newRules.filter (hasId id) := by
  have hany : (installed.any fun s => s.id = id) = true ↔ installed.filter (hasId id) ≠ [] := by
    simp [hasId, List.filter_eq_nil_iff]
  rw [additions_reconcile, List.filter_filter]
  split
  · rename_i hstays
    rw [List.filter_eq_nil_iff]
    intro r _
    by_cases hid : r.id = id
    · simp [hid, hstays.1, hany.2 hstays.2]
    · simp [hasId, hid]
  · rename_i hnew
    refine List.filter_congr fun r _ => ?_
    by_cases hid : r.id = id
    · rw [not_and] at hnew
      by_cases hgo : id ∈ outdated newRules [] installed
      · simp [hasId, hid, hgo]
      · have hnone : (installed.any fun s => s.id = id) = false :=
          Bool.eq_false_iff.2 (mt hany.1 (hnew hgo))
        rw [hid, hnone]
        simp
    · simp [hasId, hid]

/-- The rules that an engine is left with after reconciling, kept and added, before they are put in
order. -/
def reconciled : List BlockRule :=
  (reconcile installed newRules).kept installed ++ (reconcile installed newRules).additions

/-- Under each number stand the new rules with it, or the last of them alone. -/
theorem filter_reconciled (id : UInt32) :
    (reconciled installed newRules).filter (hasId id) = newRules.filter (hasId id) ∨
      ∃ r, (reconciled installed newRules).filter (hasId id) = [r] ∧
        (newRules.filter (hasId id)).getLast? = some r := by
  rw [reconciled, List.filter_append, filter_kept_reconcile, filter_additions_reconcile]
  by_cases hgo : id ∈ outdated newRules [] installed
  · left
    -- no rule with the number is kept, and all the new ones are added
    rw [if_pos hgo, if_neg (by simp [hgo]), List.nil_append]
  · rw [if_neg hgo]
    rcases filter_installed_of_not_outdated hgo with hnone | ⟨r, hr, hid, hwanted, -⟩
    · left
      rw [hnone, if_neg (by simp), List.nil_append]
    · right
      -- the one installed rule is kept, and none is added to it
      refine ⟨r, ?_, hid ▸ getLast?_filter_of_wanted hwanted⟩
      rw [hr, if_pos ⟨hgo, by simp⟩, List.append_nil]

/-- Reconciling leaves the table of the new rules, whatever was installed. -/
theorem apply_reconcile :
    (reconcile installed newRules).apply installed = Table.ofList BlockRule.id newRules := by
  rw [RuleUpdate.apply_eq_ofList]
  refine Table.Ascending.ext (Table.ascending_ofList _ _) (Table.ascending_ofList _ _) fun id => ?_
  rw [find?_ofList_eq_getLast?, find?_ofList_eq_getLast?]
  rcases filter_reconciled installed newRules id with heq | ⟨r, hr, hlast⟩
  · exact congrArg List.getLast? heq
  · rw [hlast]
    exact congrArg List.getLast? hr

/-- How often a number occurs among some rules. -/
theorem count_map_id (id : UInt32) (rules : List BlockRule) :
    (rules.map BlockRule.id).count id = (rules.filter (hasId id)).length := by
  rw [List.count, List.countP_map, List.countP_eq_length_filter]
  congr 2

/-- Reconciling with rules of distinct numbers keeps and adds rules of distinct numbers. -/
theorem nodup_reconciled (h : (newRules.map BlockRule.id).Nodup) :
    ((reconciled installed newRules).map BlockRule.id).Nodup := by
  rw [List.nodup_iff_count_le_one] at h ⊢
  intro id
  have hid := h id
  rw [count_map_id] at hid ⊢
  rcases filter_reconciled installed newRules id with heq | ⟨r, hr, -⟩
  · rw [heq]
    exact hid
  · rw [hr]
    exact Nat.le_refl 1

end BlockRule

end NavPolicy
