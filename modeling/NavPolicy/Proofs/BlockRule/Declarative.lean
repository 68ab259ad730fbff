import NavPolicy.BlockRule.Declarative
import NavPolicy.Proofs.BlockRule.Difference

/-!
# Browsers take exported updates

A browser does not put rules under their numbers as `RuleUpdate.apply` does: it deletes the rules with the
numbers to remove, then adds the new ones one after the other, and takes none if the number of one is
present when its turn comes (`DeclarativeUpdate.take?`).  An update would be refused there that only works
because a rule takes the place of another with its number.

The update of reconciling is not refused.  What it keeps and adds has distinct numbers, so that each rule
meets none of its number (`RuleUpdate.take?_of_nodup`), and it is the new rules in some order, which are
the same list once they are put in the order of their numbers (`inOrder_eq_of_perm`).
-/

namespace NavPolicy

/-! ## Rules in a browser -/

namespace DeclarativeRule

/-- Adds rules to those present, one after the other, unless the number of one is present already. -/
def addAll? (present : List DeclarativeRule) : List DeclarativeRule → Option (List DeclarativeRule)
  | [] => some present
  | r :: rs => if r.id ∈ present.map id then none else addAll? (present ++ [r]) rs

/-- The rules in the order of their numbers. -/
def inOrder (rules : List DeclarativeRule) : List DeclarativeRule :=
  rules.mergeSort fun r s => r.id ≤ s.id

/-- Rules are added just if their numbers are distinct and none of them is present, and then they come
after those present. -/
theorem addAll?_eq_some_iff {present added rules : List DeclarativeRule} :
    addAll? present added = some rules ↔ (added.map id).Nodup ∧
      (∀ r ∈ added, r.id ∉ present.map id) ∧ rules = present ++ added := by
  induction added generalizing present with
  | nil => simp [addAll?, eq_comm]
  | cons r rs ih =>
    rw [addAll?, List.map_cons, List.nodup_cons, List.forall_mem_cons]
    by_cases hr : r.id ∈ present.map id
    · rw [if_pos hr]
      exact ⟨nofun, fun h => absurd hr h.2.1.1⟩
    · -- once `r` is present, the numbers of the others have to differ from its own as well
      have hpresent : (∀ s ∈ rs, s.id ∉ (present ++ [r]).map id) ↔
          (∀ s ∈ rs, s.id ∉ present.map id) ∧ r.id ∉ rs.map id := by
        simp only [List.map_append, List.map_cons, List.map_nil, List.mem_append, List.mem_singleton,
          not_or, forall_and, List.mem_map, not_exists, not_and]
      rw [if_neg hr, ih, hpresent, List.append_assoc, List.singleton_append]
      tauto

/-- Of two rules that are put in order, the one with the smaller number comes first. -/
theorem pairwise_inOrder (rules : List DeclarativeRule) :
    (inOrder rules).Pairwise fun r s => r.id ≤ s.id := by
  have hsorted : (inOrder rules).Pairwise fun r s => decide (r.id ≤ s.id) = true := by
    refine List.pairwise_mergeSort (fun r s t hrs hst => ?_) (fun r s => ?_) rules
    · exact decide_eq_true (UInt32.le_trans (of_decide_eq_true hrs) (of_decide_eq_true hst))
    · simpa using UInt32.le_total r.id s.id
  exact hsorted.imp of_decide_eq_true

/-- There is one list of the same rules of distinct numbers in the order of their numbers. -/
theorem inOrder_eq_of_perm {rules sorted : List DeclarativeRule} (hperm : rules.Perm sorted)
    (hdistinct : (rules.map id).Nodup) (hsorted : sorted.Pairwise fun r s => r.id ≤ s.id) :
    inOrder rules = sorted := by
  have hsame : (inOrder rules).Perm rules := List.mergeSort_perm ..
  refine List.Perm.eq_of_pairwise (fun r s hr hs hrs hsr => ?_) (pairwise_inOrder rules) hsorted
    (hsame.trans hperm)
  exact List.inj_on_of_nodup_map hdistinct (hsame.mem_iff.1 hr) (hperm.mem_iff.2 hs)
    (UInt32.le_antisymm hrs hsr)

end DeclarativeRule

/-- What a browser that holds some rules makes of an update: it deletes the rules with the numbers to
remove and then adds the new ones; nothing if it refuses one of them. -/
def DeclarativeUpdate.take? (u : DeclarativeUpdate) (rules : List DeclarativeRule) :
    Option (List DeclarativeRule) :=
  DeclarativeRule.addAll? (rules.filter fun r => r.id ∉ u.removeRuleIds) u.addRules

/-! ## Exported rules -/

/-- Rules are exported with their numbers. -/
theorem map_id_declarative (rules : List BlockRule) :
    (rules.map BlockRule.declarative).map DeclarativeRule.id = rules.map BlockRule.id := by
  rw [List.map_map]
  rfl

/-- Of the exported rules a browser keeps the export of those that the update keeps. -/
theorem RuleUpdate.filter_declarative (u : RuleUpdate) (rules : List BlockRule) :
    ((rules.map BlockRule.declarative).filter fun r => r.id ∉ u.declarative.removeRuleIds) =
      (u.kept rules).map BlockRule.declarative := by
  rw [List.filter_map]
  rfl

/-- A browser takes an exported update if no number occurs twice among the rules that it keeps and adds,
and then holds their export. -/
theorem RuleUpdate.take?_of_nodup {u : RuleUpdate} {rules : List BlockRule}
    (h : ((u.kept rules ++ u.additions).map BlockRule.id).Nodup) :
    u.declarative.take? (rules.map BlockRule.declarative) =
      some ((u.kept rules ++ u.additions).map BlockRule.declarative) := by
  rw [List.map_append, List.nodup_append] at h
  obtain ⟨-, hadded, hdisjoint⟩ := h
  rw [DeclarativeUpdate.take?, filter_declarative, List.map_append]
  refine DeclarativeRule.addAll?_eq_some_iff.2 ⟨?_, fun r hr => ?_, rfl⟩
  · exact (map_id_declarative u.additions).symm ▸ hadded
  · obtain ⟨s, hs, rfl⟩ := List.mem_map.1 hr
    rw [map_id_declarative]
    exact fun hmem => hdisjoint s.id hmem s.id (List.mem_map_of_mem hs) rfl

namespace BlockRule

variable {newRules : List BlockRule}

/-- The export of rules that ascend in their number is in the order of their numbers. -/
theorem pairwise_declarative {rules : List BlockRule} (h : Table.Ascending BlockRule.id rules) :
    (rules.map BlockRule.declarative).Pairwise fun r s => r.id ≤ s.id :=
  List.pairwise_map.2 (List.Pairwise.imp UInt32.le_of_lt h)

/-- Exported rules of distinct numbers, put in the order of their numbers, are the export of their
table. -/
theorem inOrder_declarative {rules : List BlockRule} (hperm : rules.Perm newRules)
    (hnew : (newRules.map BlockRule.id).Nodup) :
    DeclarativeRule.inOrder (rules.map BlockRule.declarative) =
      (Table.ofList BlockRule.id newRules).map BlockRule.declarative := by
  refine DeclarativeRule.inOrder_eq_of_perm ?_ ?_ (pairwise_declarative (Table.ascending_ofList _ _))
  · exact (hperm.trans (Table.ofList_perm hnew).symm).map _
  · rw [map_id_declarative]
    exact (hperm.map _).nodup_iff.2 hnew

/-- Whatever a browser holds the export of, reconciling with new rules of distinct numbers exports to an
update that it takes.  The numbers to remove ascend strictly and are all of rules that it holds; no rule
is added whose number is still present or comes twice; and the rules that it is left with, in the order of
their numbers, are the export of the new rules in that order, which is also the export of what the engine
holds after the same update. -/
theorem browser_takes_reconciled (installed : List BlockRule)
    (hnew : (newRules.map BlockRule.id).Nodup) :
    let u := reconcile installed newRules
    u.declarative.removeRuleIds.Pairwise (· < ·) ∧
      (∀ id ∈ u.declarative.removeRuleIds,
        id ∈ (installed.map BlockRule.declarative).map DeclarativeRule.id) ∧
      ∃ rules, u.declarative.take? (installed.map BlockRule.declarative) = some rules ∧
        DeclarativeRule.inOrder rules =
          DeclarativeRule.inOrder (newRules.map BlockRule.declarative) ∧
        DeclarativeRule.inOrder rules = (u.apply installed).map BlockRule.declarative := by
  intro u
  refine ⟨u.ascending, fun id hid => ?_, (reconciled installed newRules).map BlockRule.declarative, ?_,
    ?_, ?_⟩
  · rw [map_id_declarative]
    exact mem_ids_of_mem_removals hid
  · exact RuleUpdate.take?_of_nodup (nodup_reconciled installed newRules hnew)
  · rw [inOrder_declarative (reconciled_perm installed hnew) hnew, inOrder_declarative (.refl _) hnew]
  · rw [inOrder_declarative (reconciled_perm installed hnew) hnew, apply_reconcile]

/-- Of three exported rules one stays, one is to go and one is replaced under its number, and a further one
is added, none of them in order; what the browser gets is written out. -/
theorem browser_takes_reconciled_mixed :
    let installed : List BlockRule := [⟨3, "*stale*"⟩, ⟨1, "*ads*"⟩, ⟨2, "*old*"⟩]
    let newRules : List BlockRule := [⟨4, "*more*"⟩, ⟨2, "*new*"⟩, ⟨1, "*ads*"⟩]
    let u := reconcile installed newRules
    let kinds :=
      ["main_frame", "sub_frame", "script", "xmlhttprequest", "image", "stylesheet", "object", "other"]
    (newRules.map BlockRule.id).Nodup ∧
      u.declarative.removeRuleIds = [2, 3] ∧
      u.declarative.addRules = [⟨4, 1, "block", "*more*", kinds⟩, ⟨2, 1, "block", "*new*", kinds⟩] ∧
      ∃ rules, u.declarative.take? (installed.map BlockRule.declarative) = some rules ∧
        DeclarativeRule.inOrder rules =
          [⟨1, 1, "block", "*ads*", kinds⟩, ⟨2, 1, "block", "*new*", kinds⟩,
            ⟨4, 1, "block", "*more*", kinds⟩] := by
  intro installed newRules u kinds
  have hnew : (newRules.map BlockRule.id).Nodup := by decide
  have happly : u.apply installed = [⟨1, "*ads*"⟩, ⟨2, "*new*"⟩, ⟨4, "*more*"⟩] := by decide
  obtain ⟨-, -, rules, htake, -, horder⟩ := browser_takes_reconciled installed hnew
  refine ⟨hnew, by decide, by decide, rules, htake, horder.trans ?_⟩
  rw [happly]
  rfl

end BlockRule

end NavPolicy
