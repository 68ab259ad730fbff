import NavPolicy.Proofs.Engine

/-!
# Reconciling replaces the rules

Whatever is installed, reconciling with new rules leaves their table: of each number the last new rule,
and nothing else (`mem_ofList_iff`).  Where the table of the new rules is installed already, none of it
is outdated and none of the new rules is missing, so reconciling again changes nothing; an engine that
holds the table takes the new rules again and is then the same.
-/

namespace NavPolicy

namespace BlockRule

/-! ## The last rule of each number -/

/-- Whether a rule stands among others with none of its number after it. -/
def IsLastOfNumber (rules : List BlockRule) (r : BlockRule) : Prop :=
  ∃ earlier later, rules = earlier ++ r :: later ∧ ∀ s ∈ later, s.id ≠ r.id

/-- Searching from the back finds the last rule of a number. -/
theorem findRev?_eq_some_iff {rules : List BlockRule} {r : BlockRule} :
    rules.findRev? (fun s => s.id = r.id) = some r ↔ IsLastOfNumber rules r := by
  rw [List.findRev?_eq_find?_reverse, List.find?_eq_some_iff_append]
  constructor
  · rintro ⟨-, later, earlier, heq, hlater⟩
    refine ⟨earlier.reverse, later.reverse, ?_, fun s hs => ?_⟩
    · rw [← List.reverse_reverse rules, heq]
      simp
    · simpa using hlater s (List.mem_reverse.1 hs)
  · rintro ⟨earlier, later, rfl, hlater⟩
    refine ⟨by simp, later.reverse, earlier.reverse, by simp, fun s hs => ?_⟩
    simpa using hlater s (List.mem_reverse.1 hs)

/-- The table of some rules holds the last of each number. -/
theorem mem_ofList_iff {rules : List BlockRule} {r : BlockRule} :
    r ∈ Table.ofList BlockRule.id rules ↔ IsLastOfNumber rules r := by
  rw [← (Table.ascending_ofList _ rules).find?_eq_some_iff, Table.find?_ofList, findRev?_eq_some_iff]

/-! ## Reconciling again -/

/-- Rules of distinct numbers that are all wanted as they are may all stay. -/
theorem outdated_eq_nil {newRules installed : List BlockRule} {staying : List UInt32}
    (hwanted : ∀ r ∈ installed, wanted? newRules r.id = some r.pattern)
    (hnodup : (installed.map BlockRule.id).Nodup)
    (hmet : ∀ r ∈ installed, r.id ∉ staying) : outdated newRules staying installed = [] := by
  induction installed generalizing staying with
  | nil => rfl
  | cons r rs ih =>
    rw [List.forall_mem_cons] at hwanted hmet
    rw [List.map_cons, List.nodup_cons] at hnodup
    rw [outdated, if_pos ⟨hwanted.1, hmet.1⟩]
    refine ih hwanted.2 hnodup.2 fun s hs => ?_
    rw [List.mem_cons, not_or]
    exact ⟨fun heq => hnodup.1 (heq ▸ List.mem_map_of_mem hs), hmet.2 s hs⟩

/-- The rules in the table of the new ones are wanted as they are. -/
theorem wanted?_of_mem_ofList {newRules : List BlockRule} {r : BlockRule}
    (h : r ∈ Table.ofList BlockRule.id newRules) : wanted? newRules r.id = some r.pattern := by
  rw [wanted?, findRev?_eq_some_iff.2 (mem_ofList_iff.1 h)]
  rfl

variable (newRules : List BlockRule)

/-- Where the table of the new rules is installed already, none of it has to go. -/
theorem outdated_ofList : outdated newRules [] (Table.ofList BlockRule.id newRules) = [] :=
  outdated_eq_nil (fun _ hr => wanted?_of_mem_ofList hr) (Table.ascending_ofList _ _).nodup_keys
    fun _ _ => List.not_mem_nil

/-- Where the table of the new rules is installed already, there is nothing to remove. -/
theorem removals_reconcile_ofList :
    (reconcile (Table.ofList BlockRule.id newRules) newRules).removals = [] := by
  rw [reconcile, outdated_ofList]
  rfl

/-- Where the table of the new rules is installed already, there is nothing to add. -/
theorem additions_reconcile_ofList :
    (reconcile (Table.ofList BlockRule.id newRules) newRules).additions = [] := by
  rw [reconcile, outdated_ofList]
  refine List.filter_eq_nil_iff.2 fun r hr => ?_
  have hkey : r.id ∈ (Table.ofList BlockRule.id newRules).map BlockRule.id :=
    Table.mem_keys_ofList.2 (List.mem_map_of_mem hr)
  have hinstalled : (Table.ofList BlockRule.id newRules).any (fun s => s.id = r.id) = true := by
    simpa using hkey
  simp [hinstalled]

/-- Where the table of the new rules is installed already, reconciling changes nothing. -/
theorem isEmpty_reconcile_ofList :
    (reconcile (Table.ofList BlockRule.id newRules) newRules).isEmpty = true := by
  rw [RuleUpdate.isEmpty, removals_reconcile_ofList, additions_reconcile_ofList]
  rfl

end BlockRule

/-! ## The engine -/

namespace Engine

/-- An engine that has accepted an update holds the rules after it. -/
theorem eq_holding_of_apply {u : RuleUpdate} {e e' : Engine} (h : e.apply u = .ok e') :
    e' = holding (u.apply e.rules) := by
  rw [apply] at h
  split at h
  · exact (Except.ok.inj h).symm
  · exact absurd h (by simp)

/-- An engine that has taken new rules in place of its own holds their table. -/
theorem eq_holding_of_apply_reconcile {newRules : List BlockRule} {e e' : Engine}
    (h : e.apply (BlockRule.reconcile e.rules newRules) = .ok e') :
    e' = holding (Table.ofList BlockRule.id newRules) := by
  rw [eq_holding_of_apply h, BlockRule.apply_reconcile]

/-- An engine that holds the table of new rules takes them again, and is then the same. -/
theorem apply_reconcile_ofList (newRules : List BlockRule) :
    let table := Table.ofList BlockRule.id newRules
    (holding table).apply (BlockRule.reconcile table newRules) = .ok (holding table) := by
  intro table
  have hkept : (BlockRule.reconcile table newRules).kept table ++
      (BlockRule.reconcile table newRules).additions = table := by
    rw [RuleUpdate.kept, BlockRule.removals_reconcile_ofList, BlockRule.additions_reconcile_ofList,
      List.append_nil]
    exact List.filter_eq_self.2 fun _ _ => by simp
  have hnodup : (((BlockRule.reconcile table newRules).kept table ++
      (BlockRule.reconcile table newRules).additions).map BlockRule.id).Nodup := by
    rw [hkept]
    exact (Table.ascending_ofList _ _).nodup_keys
  exact (apply_of_nodup hnodup).trans <|
    congrArg (Except.ok ∘ holding) (BlockRule.apply_reconcile table newRules)

end Engine

namespace BlockRule

/-! ## Replacement -/

/-- Whatever is installed, in any order and with numbers that repeat, reconciling with new rules leaves
the last of them of each number, ascending in their number, and nothing else.  Reconciling that again
changes nothing.  If the new rules have distinct numbers, so have the rules that are kept or added, and
an engine that holds the installed rules accepts the update. -/
theorem reconcile_replaces (installed newRules : List BlockRule) :
    let u := reconcile installed newRules
    let result := u.apply installed
    Table.Ascending BlockRule.id result ∧ (∀ r, r ∈ result ↔ IsLastOfNumber newRules r) ∧
      (reconcile result newRules).isEmpty = true ∧
      ((newRules.map BlockRule.id).Nodup →
        ((u.kept installed ++ u.additions).map BlockRule.id).Nodup ∧
          ∀ e : Engine, e.rules = installed → e.apply u = .ok (.holding result)) := by
  intro u result
  have hresult : result = Table.ofList BlockRule.id newRules := apply_reconcile installed newRules
  refine ⟨?_, fun r => ?_, ?_, fun hdistinct => ?_⟩
  · rw [hresult]
    exact Table.ascending_ofList _ _
  · rw [hresult, mem_ofList_iff]
  · rw [hresult]
    exact isEmpty_reconcile_ofList newRules
  · have hnodup := nodup_reconciled installed newRules hdistinct
    refine ⟨hnodup, ?_⟩
    rintro e rfl
    exact Engine.apply_of_nodup hnodup

/-- A rule that is installed twice under its number goes with both copies and comes back once. -/
theorem reconcile_replaces_copies :
    let installed := [⟨2, "*old*"⟩, ⟨1, "*ads*"⟩, ⟨1, "*ads*"⟩]
    let newRules := [⟨1, "*ads*"⟩, ⟨3, "*new*"⟩]
    let u := reconcile installed newRules
    (u.removals, u.additions) = ([1, 2], newRules) ∧
      ((u.kept installed ++ u.additions).map BlockRule.id).Nodup := by
  intro installed newRules u
  exact ⟨by decide, ((reconcile_replaces installed newRules).2.2.2 (by decide)).1⟩

end BlockRule

end NavPolicy
