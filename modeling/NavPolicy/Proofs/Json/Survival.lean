import NavPolicy.BlockRule.Update
import NavPolicy.Config
import NavPolicy.Navigation
import NavPolicy.Policy.Compiled
import NavPolicy.Proofs.Store.Cell

/-!
# Types that survive being kept

A type survives being kept if each of its members is read from both of its texts, the compact and the
indented one, and if every text that is read at all can be replaced by the compact text of what it is read
as (`Persisted.Survives`).  Each lawful type does.  Records are read from their fields one by one, so that
a record is lawful once its fields have lawful types and names of their own.
-/

namespace NavPolicy

namespace Json

/-! ## Survival -/

/-- Whether every member of the type is read from its compact and from its indented text, and whether every
text that is read has a compact text that is read as the same member and is its own compact text. -/
structure Persisted.Survives (α : Type) [Persisted α] : Prop where
  read_compact : ∀ x : α, read (toJson x).compact = .ok x
  read_indented : ∀ x : α, read (toJson x).indented = .ok x
  rewritten : ∀ text kept : String, (read text : Except Error α).map write = .ok kept →
    (read kept : Except Error α) = read text ∧ (read kept : Except Error α).map write = .ok kept

/-- A lawful type survives being kept. -/
theorem Persisted.Survives.of_lawful (α : Type) [Persisted α] [Persisted.Lawful α] :
    Persisted.Survives α where
  read_compact := read_write
  read_indented := Json.read_indented
  rewritten text kept h := by
    cases hread : (read text : Except Error α) with
    | error e =>
      rw [hread] at h
      exact absurd h (by simp [Except.map])
    | ok x =>
      rw [hread] at h
      obtain rfl : write x = kept := Except.ok.inj h
      rw [read_write]
      exact ⟨rfl, rfl⟩

/-! ## Numbers -/

instance : Persisted.Lawful UInt64 where
  isPlain_toJson n := isPlain_ofNat n.toNat
  ofJson_toJson n := by
    have hlt : n.toNat < UInt64.size := n.toNat_lt
    simp only [ofJson, toJson, Value.ofNat, hlt, if_true]
    rw [UInt64.ofNat_toNat]

theorem isPlain_ofInt (n : Int) : (Value.ofInt n).IsPlain := by
  intro t ht
  rw [List.mem_singleton.1 ht]
  trivial

instance : Persisted.Lawful Int32 where
  isPlain_toJson n := isPlain_ofInt n.toInt
  ofJson_toJson n := by
    have hlower : -2 ^ 31 ≤ n.toInt := n.le_toInt
    have hupper : n.toInt < 2 ^ 31 := n.toInt_lt
    show int32OfJson (.number (.integer (n.toInt < 0) n.toInt.natAbs)) = .ok n
    by_cases hneg : n.toInt < 0
    · have hbound : 0 < n.toInt.natAbs ∧ n.toInt.natAbs ≤ 1 <<< 31 := by omega
      have habs : -(n.toInt.natAbs : Int) = n.toInt := by omega
      rw [decide_eq_true hneg, int32OfJson, if_pos hbound, habs, Int32.ofInt_toInt]
    · have hbound : n.toInt.natAbs < 1 <<< 31 := by omega
      have habs : (n.toInt.natAbs : Int) = n.toInt := by omega
      rw [decide_eq_false hneg, int32OfJson, if_pos hbound, ← Int32.ofInt_eq_ofNat, habs,
        Int32.ofInt_toInt]

/-! ## Records -/

namespace Record

variable {α : Type} [Persisted α] {r : Record} {name : String}

/-- A field that may be null is read as it was kept. -/
theorem nullable_of_get? [Persisted.Lawful (Option α)] {x : Option α}
    (h : r.get? name = some (toJson x)) : r.nullable name = .ok x := by
  rw [nullable, h]
  exact ofJson_toJson x

end Record

end Json

open Json (isPlain_toJson isPlain_record)
open Json.Record (ok_bind ofValue_record required_of_get? optional_of_get? nullable_of_get?)

/-- The numbers to remove are read as they are, since they ascend. -/
instance : Json.Persisted.Lawful RuleUpdate where
  isPlain_toJson u := by
    refine isPlain_record fun f hf => ?_
    rcases List.mem_pair.1 hf with rfl | rfl
    · exact isPlain_toJson u.removals
    · exact isPlain_toJson u.additions
  ofJson_toJson u := by
    show (Json.Record.ofValue _ (.record _) >>= _) = _
    rw [ofValue_record (by simp) (by simp), ok_bind, required_of_get? (x := u.removals) rfl,
      ok_bind, required_of_get? (x := u.additions) rfl, ok_bind]
    obtain ⟨removals, additions, hascending⟩ := u
    simp only [RuleUpdate.ofLists, Table.ofList_eq_self hascending]
    rfl

instance : Json.Persisted.Lawful CompiledPolicy where
  isPlain_toJson p := by
    refine isPlain_record fun f hf => ?_
    simp only [List.mem_cons, List.not_mem_nil, or_false] at hf
    rcases hf with rfl | rfl | rfl
    · exact isPlain_toJson p.blockRules
    · exact isPlain_toJson p.redirectRules
    · exact isPlain_toJson p.lock
  ofJson_toJson p := by
    show (Json.Record.ofValue _ (.record _) >>= _) = _
    rw [ofValue_record (by simp) (by simp), ok_bind, required_of_get? (x := p.blockRules) rfl,
      ok_bind, required_of_get? (x := p.redirectRules) rfl, ok_bind,
      required_of_get? (x := p.lock) rfl, ok_bind]
    rfl

instance : Json.Persisted.Lawful NavigationPhase where
  isPlain_toJson p := isPlain_toJson p.name
  ofJson_toJson p := by cases p <;> rfl

instance : Json.Persisted.Lawful Navigation where
  isPlain_toJson n := by
    refine isPlain_record fun f hf => ?_
    simp only [List.mem_cons, List.not_mem_nil, or_false] at hf
    rcases hf with rfl | rfl | rfl
    · exact isPlain_toJson n.tab
    · exact isPlain_toJson n.phase
    · exact isPlain_toJson n.url
  ofJson_toJson n := by
    show (Json.Record.ofValue _ (.record _) >>= _) = _
    rw [ofValue_record (by simp) (by simp), ok_bind, required_of_get? (x := n.tab) rfl, ok_bind,
      required_of_get? (x := n.phase) rfl, ok_bind, nullable_of_get? (x := n.url) rfl, ok_bind]
    rfl

instance : Json.Persisted.Lawful Override where
  isPlain_toJson o := by
    refine isPlain_record fun f hf => ?_
    rcases List.mem_pair.1 hf with rfl | rfl
    · exact isPlain_toJson o.tab
    · exact isPlain_toJson o.url
  ofJson_toJson o := by
    show (Json.Record.ofValue _ (.record _) >>= _) = _
    rw [ofValue_record (by simp) (by simp), ok_bind, required_of_get? (x := o.tab) rfl, ok_bind,
      required_of_get? (x := o.url) rfl, ok_bind]
    rfl

instance : Json.Persisted.Lawful Config where
  isPlain_toJson c := by
    refine isPlain_record fun f hf => ?_
    simp only [List.mem_cons, List.not_mem_nil, or_false] at hf
    rcases hf with rfl | rfl | rfl | rfl | rfl | rfl
    · exact isPlain_toJson c.managedPolicyUrl
    · exact isPlain_toJson c.statePath
    · exact isPlain_toJson c.refreshDelaySecs
    · exact isPlain_toJson c.refreshPeriodSecs
    · exact isPlain_toJson c.probeTimeoutMs
    · exact isPlain_toJson c.fetchTimeoutMs
  ofJson_toJson c := by
    show (Json.Record.ofValue _ (.record _) >>= _) = _
    rw [ofValue_record (by simp [Config.settingNames]) (by simp), ok_bind]
    dsimp only
    rw [optional_of_get? (x := c.managedPolicyUrl) rfl, ok_bind,
      optional_of_get? (x := c.statePath) rfl, ok_bind,
      optional_of_get? (x := c.refreshDelaySecs) rfl, ok_bind,
      optional_of_get? (x := c.refreshPeriodSecs) rfl, ok_bind,
      optional_of_get? (x := c.probeTimeoutMs) rfl, ok_bind,
      optional_of_get? (x := c.fetchTimeoutMs) rfl, ok_bind]
    rfl

/-! ## All types that are kept -/

/-- Every type that is kept, whether in the store, in a message or in a file of settings, survives it. -/
theorem kept_types_survive :
    Json.Persisted.Survives Destination ∧ Json.Persisted.Survives BlockRule ∧
      Json.Persisted.Survives RedirectRule ∧ Json.Persisted.Survives AccessLock ∧
      Json.Persisted.Survives RuleUpdate ∧ Json.Persisted.Survives CompiledPolicy ∧
      Json.Persisted.Survives Navigation ∧ Json.Persisted.Survives Override ∧
      Json.Persisted.Survives Config :=
  ⟨.of_lawful _, .of_lawful _, .of_lawful _, .of_lawful _, .of_lawful _, .of_lawful _,
    .of_lawful _, .of_lawful _, .of_lawful _⟩

end NavPolicy
