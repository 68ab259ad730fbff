import Mathlib.Algebra.Group.Nat.Defs
import NavPolicy.Policy.Compiled
import NavPolicy.Proofs.Table

/-!
# Numbers of compiled block rules

The block rules of a document are numbered from one on.  As long as the document has fewer entries than
there are numbers, they are the numbers from one on (`map_id_blockRules`) and ascend, so the rules are a
table of their own (`ascending_blockRules`).
-/

namespace NavPolicy.PolicyDocument

/-- There are no more block rules than entries. -/
theorem length_blockRules_le (doc : PolicyDocument) :
    doc.blockRules.length ≤ doc.entries.length := by
  have hrulings : doc.rulings.length = doc.entries.length := List.length_map _
  rw [blockRules, List.length_mapIdx, ← hrulings]
  exact List.length_filterMap_le _ _

/-- The block rule at a place has the number of the place, counted from one. -/
theorem id_getElem_blockRules (doc : PolicyDocument) (i : Nat) (hi : i < doc.blockRules.length) :
    doc.blockRules[i].id = UInt32.ofNat (i + 1) := by
  simp [blockRules]

/-- The block rules of a document have the patterns that are to be blocked, in order. -/
theorem map_pattern_blockRules (doc : PolicyDocument) :
    doc.blockRules.map BlockRule.pattern = doc.rulings.filterMap Ruling.blocked? := by
  refine List.ext_getElem (by simp [blockRules]) fun i _ _ => ?_
  simp [blockRules]

/-- The numbers of the block rules are those from one on, if there are enough of them. -/
theorem map_id_blockRules (doc : PolicyDocument) (h : doc.blockRules.length < 2 ^ 32) :
    doc.blockRules.map (fun r => r.id.toNat) = List.range' 1 doc.blockRules.length := by
  refine List.ext_getElem (by simp) fun i hi _ => ?_
  rw [List.length_map] at hi
  rw [List.getElem_map, id_getElem_blockRules, UInt32.toNat_ofNat', Nat.mod_eq_of_lt (by omega),
    List.getElem_range']
  omega

/-- The block rules of a document ascend in their number, if there are enough numbers for them. -/
theorem ascending_of_length_lt (doc : PolicyDocument) (h : doc.blockRules.length < 2 ^ 32) :
    Table.Ascending BlockRule.id doc.blockRules := by
  rw [Table.Ascending, List.pairwise_iff_getElem]
  intro i j hi hj hij
  rw [id_getElem_blockRules, id_getElem_blockRules, UInt32.lt_iff_toNat_lt, UInt32.toNat_ofNat',
    UInt32.toNat_ofNat', Nat.mod_eq_of_lt (by omega), Nat.mod_eq_of_lt (by omega)]
  omega

/-- The block rules of a document ascend in their number, if there are enough numbers for its
entries. -/
theorem ascending_blockRules (doc : PolicyDocument) (h : doc.entries.length < 2 ^ 32) :
    Table.Ascending BlockRule.id doc.blockRules :=
  doc.ascending_of_length_lt (Nat.lt_of_le_of_lt doc.length_blockRules_le h)

end NavPolicy.PolicyDocument
