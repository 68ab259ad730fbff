import NavPolicy.Proofs.BlockRule.Replacement

/-!
# What reconciling removes and adds

Where no number occurs twice, reconciling is a difference of sets.  It removes the numbers of the
installed rules that are not among the new ones (`mem_removals_reconcile_iff`), and it adds the new rules
that are not installed (`mem_additions_reconcile_iff`); a changed pattern thus makes its number one to
remove and its rule one to add.  What is kept and added is then the new rules, in some order, whatever
was installed (`reconciled_perm`).
-/

namespace NavPolicy.BlockRule

/-! ## Rules that are wanted -/

/-- Of distinct numbers, the rules that are wanted as they are are the new ones. -/
theorem wanted?_eq_some_iff {newRules : List BlockRule} {r : BlockRule}
    (hnew : (newRules.map BlockRule.id).Nodup) :
    wanted? newRules r.id = some r.pattern ↔ r ∈ newRules := by
  constructor
  · intro h
    exact List.mem_of_mem_filter (List.mem_of_getLast? (getLast?_filter_of_wanted h))
  · intro hr
    exact wanted?_of_mem_ofList ((Table.ofList_perm hnew).mem_iff.2 hr)

/-- Of rules with distinct numbers that were not met before, those have to go that are not wanted as
they are. -/
theorem mem_outdated_iff {newRules installed : List BlockRule} {staying : List UInt32} {id : UInt32}
    (hinstalled : (installed.map BlockRule.id).Nodup) (hmet : ∀ r ∈ installed, r.id ∉ staying) :
    id ∈ outdated newRules staying installed ↔
      ∃ r ∈ installed, r.id = id ∧ wanted? newRules r.id ≠ some r.pattern := by
  induction installed generalizing staying with
  | nil => simp [outdated]
  | cons r rs ih =>
    rw [List.map_cons, List.nodup_cons] at hinstalled
    rw [List.forall_mem_cons] at hmet
    rw [outdated]
    by_cases hwanted : wanted? newRules r.id = some r.pattern
    · have hrest : ∀ s ∈ rs, s.id ∉ r.id :: staying := by
        intro s hs hmem
        rcases List.mem_cons.1 hmem with heq | hmem
        · exact hinstalled.1 (heq ▸ List.mem_map_of_mem hs)
        · exact hmet.2 s hs hmem
      rw [if_pos ⟨hwanted, hmet.1⟩, ih hinstalled.2 hrest]
      simp [hwanted]
    · rw [if_neg fun h => hwanted h.1, List.mem_cons, ih hinstalled.2 hmet.2,
        List.exists_mem_cons_iff]
      exact or_congr_left ⟨fun h => ⟨h.symm, hwanted⟩, fun h => h.1.symm⟩

/-- Only numbers of installed rules have to go. -/
theorem mem_ids_of_mem_outdated {newRules installed : List BlockRule} {staying : List UInt32}
    {id : UInt32} (h : id ∈ outdated newRules staying installed) : id ∈ installed.map BlockRule.id := by
  induction installed generalizing staying with
  | nil => exact absurd h List.not_mem_nil
  | cons r rs ih =>
    rw [outdated] at h
    rw [List.map_cons, List.mem_cons]
    split at h
    · exact .inr (ih h)
    · exact (List.mem_cons.1 h).imp_right ih

/-! ## The difference -/

section Difference

variable {installed newRules : List BlockRule}

/-- Only numbers of installed rules are removed. -/
theorem mem_ids_of_mem_removals {id : UInt32} (h : id ∈ (reconcile installed newRules).removals) :
    id ∈ installed.map BlockRule.id :=
  mem_ids_of_mem_outdated ((mem_removals_reconcile installed newRules).1 h)

/-- The removed numbers are those of installed rules that are not among the new ones. -/
theorem mem_removals_reconcile_iff {id : UInt32}
    (hinstalled : (installed.map BlockRule.id).Nodup) (hnew : (newRules.map BlockRule.id).Nodup) :
    id ∈ (reconcile installed newRules).removals ↔ ∃ r ∈ installed, r.id = id ∧ r ∉ newRules := by
  rw [mem_removals_reconcile, mem_outdated_iff hinstalled fun _ _ => List.not_mem_nil]
  simp only [ne_eq, wanted?_eq_some_iff hnew]

/-- A rule that is installed and among the new ones stays. -/
theorem not_mem_removals_reconcile {r : BlockRule} (hinstalled : (installed.map BlockRule.id).Nodup)
    (hnew : (newRules.map BlockRule.id).Nodup) (hr : r ∈ installed) (hmem : r ∈ newRules) :
    r.id ∉ (reconcile installed newRules).removals := by
  intro hgo
  obtain ⟨s, hs, hid, hnot⟩ := (mem_removals_reconcile_iff hinstalled hnew).1 hgo
  obtain rfl : s = r := List.inj_on_of_nodup_map hinstalled hs hr hid
  exact hnot hmem

/-- A new rule is added unless a rule with its number is installed and stays. -/
theorem mem_additions_reconcile {r : BlockRule} :
    r ∈ (reconcile installed newRules).additions ↔ r ∈ newRules ∧
      ¬ (r.id ∉ (reconcile installed newRules).removals ∧ ∃ s ∈ installed, s.id = r.id) := by
  rw [additions_reconcile, List.mem_filter, mem_removals_reconcile, Bool.not_eq_true', ← Bool.not_eq_true,
    Bool.and_eq_true, decide_eq_true_eq, List.any_eq_true]
  simp only [decide_eq_true_eq]

/-- The added rules are the new ones that are not installed. -/
theorem mem_additions_reconcile_iff {r : BlockRule}
    (hinstalled : (installed.map BlockRule.id).Nodup) (hnew : (newRules.map BlockRule.id).Nodup) :
    r ∈ (reconcile installed newRules).additions ↔ r ∈ newRules ∧ r ∉ installed := by
  rw [mem_additions_reconcile]
  refine and_congr_right fun hr => ⟨fun hadd hmem => ?_, ?_⟩
  · exact hadd ⟨not_mem_removals_reconcile hinstalled hnew hmem hr, r, hmem, rfl⟩
  · rintro hmem ⟨hstays, s, hs, hid⟩
    -- the installed rule with the number is another one, so it is not among the new ones
    have hne : s ≠ r := fun heq => hmem (heq ▸ hs)
    have hgone : s ∉ newRules := fun h => hne (List.inj_on_of_nodup_map hnew h hr hid)
    exact hstays ((mem_removals_reconcile_iff hinstalled hnew).2 ⟨s, hs, hid, hgone⟩)

/-- What is kept and added is the new rules in some order, if their numbers are distinct. -/
theorem reconciled_perm (installed : List BlockRule) (hnew : (newRules.map BlockRule.id).Nodup) :
    (reconciled installed newRules).Perm newRules := by
  rw [List.perm_iff_count]
  intro r
  have hcount (rules : List BlockRule) : (rules.filter (hasId r.id)).count r = rules.count r :=
    List.count_filter (by simp [hasId])
  rw [← hcount (reconciled installed newRules), ← hcount newRules]
  rcases filter_reconciled installed newRules r.id with heq | ⟨s, hs, hlast⟩
  · rw [heq]
  · -- the last new rule with the number is the only one
    have hone : (newRules.filter (hasId r.id)).length ≤ 1 := by
      rw [← count_map_id]
      exact List.nodup_iff_count_le_one.1 hnew r.id
    have hmem : s ∈ newRules.filter (hasId r.id) := List.mem_of_getLast? hlast
    obtain ⟨t, ht⟩ := List.length_eq_one_iff.1 (Nat.le_antisymm hone (List.length_pos_of_mem hmem))
    rw [ht, List.mem_singleton] at hmem
    rw [hs, ht, hmem]

end Difference

end NavPolicy.BlockRule
