import NavPolicy.Proofs.BlockRule.Replacement

/-!
# What an update leaves

An update is understood number by number, as a lookup in what it leaves (`RuleUpdate.find?_apply`): the
last added rule with the number is found, else the last installed one, provided that the number is not
removed.  What was installed counts only through the second half of this, which is the same for the
rules that the update has left already, so that applying it to them changes nothing (`apply_apply`).
-/

namespace NavPolicy

namespace RuleUpdate

variable (u : RuleUpdate) (installed : List BlockRule)

/-- The last kept rule with a number is the last installed one, unless the number is removed. -/
theorem findRev?_kept (id : UInt32) :
    (u.kept installed).findRev? (fun r => r.id = id) =
      if id ∈ u.removals then none else installed.findRev? fun r => r.id = id := by
  rw [List.findRev?_eq_find?_reverse, List.findRev?_eq_find?_reverse, kept, ← List.filter_reverse,
    List.find?_filter]
  split
  · rename_i hremoved
    rw [List.find?_eq_none]
    intro r _ hr
    obtain ⟨hkept, hid⟩ := of_decide_eq_true hr
    exact of_decide_eq_true hkept (of_decide_eq_true hid ▸ hremoved)
  · rename_i hstays
    refine congrArg (List.find? · installed.reverse) (funext fun r => ?_)
    by_cases hid : r.id = id
    · simp [hid, hstays]
    · simp [hid]

/-- Under each number an update leaves the last added rule, else the last installed one, provided that
the number is not removed. -/
theorem find?_apply (id : UInt32) :
    Table.find? BlockRule.id id (u.apply installed) =
      (u.additions.findRev? fun r => r.id = id).or
        (if id ∈ u.removals then none else installed.findRev? fun r => r.id = id) := by
  rw [apply, Table.find?_putAll, Table.find?_ofList, findRev?_kept]

/-- The rules that an update leaves ascend in their number. -/
theorem ascending_apply : Table.Ascending BlockRule.id (u.apply installed) :=
  Table.ascending_putAll _ (Table.ascending_ofList _ _)

/-- In rules that ascend, the last one with a number is the only one, which a lookup finds. -/
theorem findRev?_apply (id : UInt32) :
    (u.apply installed).findRev? (fun r => r.id = id) =
      Table.find? BlockRule.id id (u.apply installed) := by
  rw [← Table.find?_ofList, Table.ofList_eq_self (u.ascending_apply installed)]

/-- Applying an update to what it has left changes nothing. -/
theorem apply_apply : u.apply (u.apply installed) = u.apply installed := by
  refine Table.Ascending.ext (u.ascending_apply _) (u.ascending_apply _) fun id => ?_
  rw [find?_apply, findRev?_apply, find?_apply]
  cases u.additions.findRev? fun r => r.id = id with
  | some r => rfl
  | none => split <;> rfl

/-- Whether an update is to leave a rule: it is the last added one with its number, or no added rule has
its number, it is the last installed one with it, and the number is not removed. -/
def Leaves (r : BlockRule) : Prop :=
  BlockRule.IsLastOfNumber u.additions r ∨
    (∀ s ∈ u.additions, s.id ≠ r.id) ∧ BlockRule.IsLastOfNumber installed r ∧ r.id ∉ u.removals

/-- The rules after an update are those that it is to leave. -/
theorem mem_apply_iff {r : BlockRule} : r ∈ u.apply installed ↔ u.Leaves installed r := by
  have hnone : u.additions.findRev? (fun s => s.id = r.id) = none ↔
      ∀ s ∈ u.additions, s.id ≠ r.id := by
    rw [List.findRev?_eq_find?_reverse, List.find?_eq_none]
    simp
  have hlast : (if r.id ∈ u.removals then none else installed.findRev? fun s => s.id = r.id) =
      some r ↔ BlockRule.IsLastOfNumber installed r ∧ r.id ∉ u.removals := by
    rw [← BlockRule.findRev?_eq_some_iff]
    split
    · rename_i hremoved
      simp [hremoved]
    · rename_i hstays
      simp [hstays]
  rw [← (u.ascending_apply installed).find?_eq_some_iff, find?_apply, Option.or_eq_some_iff,
    BlockRule.findRev?_eq_some_iff, hnone, hlast, Leaves]

/-- Whatever is installed and whatever an update removes and adds, in any order and with numbers that
repeat, the rules after it ascend strictly in their number and are just those that it is to leave.
Applying it to them again changes nothing. -/
theorem apply_normalizes :
    Table.Ascending BlockRule.id (u.apply installed) ∧
      (∀ r, r ∈ u.apply installed ↔ u.Leaves installed r) ∧
      u.apply (u.apply installed) = u.apply installed :=
  ⟨u.ascending_apply installed, fun _ => u.mem_apply_iff installed, u.apply_apply installed⟩

/-- A number that is removed and added twice has its last added rule, and stays at it. -/
example :
    let u := ofLists [7, 1] [⟨1, "b"⟩, ⟨9, "x"⟩, ⟨1, "c"⟩]
    let left : List BlockRule := [⟨1, "c"⟩, ⟨3, "k"⟩, ⟨9, "x"⟩]
    u.apply [⟨7, "old"⟩, ⟨3, "j"⟩, ⟨1, "a"⟩, ⟨3, "k"⟩] = left ∧ u.apply left = left := by decide

end RuleUpdate

end NavPolicy
