import NavPolicy.Proofs.Agent.Enforcement
import NavPolicy.Proofs.BlockRule.Replacement

/-!
# What accesses to the store and the engine give

Each access is described by its answer and what is enforced after it.  A write that fails changes
nothing; an engine that refuses to list its rules or to take an update keeps them, and one that does not
takes any new rules of distinct numbers (`Surroundings.replaced_of_not_refuses`).
-/

namespace NavPolicy.Agent

open Program (perform)

variable (env : Surroundings) (x : Enforcement)

/-! ## Cells -/

/-- The answer to an attempt on the store. -/
def outcome : Option IoError → Except StoreError Unit
  | some e => .error (.io e)
  | none => .ok ()

namespace Enforcement

/-- What reading a cell gives. -/
def read (cell : Cell) : Except StoreError (Option cell.Content) :=
  match env.readFault cell.key with
  | some e => .error (.io e)
  | none => cell.decode (x.texts cell.key)

/-- A value is written into a cell, unless that fails. -/
def write (cell : Cell) (v : cell.Content) : Enforcement :=
  x.put (env.writeFault cell.key) cell.key (some (cell.encode v))

variable {env x} {cell : Cell} {v : cell.Content}

/-- A write that fails changes nothing. -/
theorem write_of_fault {e : IoError} (h : env.writeFault cell.key = some e) :
    x.write env cell v = x := by
  rw [write, h]
  rfl

/-- A write that does not fail leaves the text of the value. -/
theorem texts_write_self (h : env.writeFault cell.key = none) :
    (x.write env cell v).texts cell.key = some (cell.encode v) := by
  rw [write, h]
  exact Function.update_self ..

/-- A write leaves the text of the value, or what stood there if it fails. -/
theorem texts_write : (x.write env cell v).texts cell.key =
    if env.writeFault cell.key = none then some (cell.encode v) else x.texts cell.key := by
  cases hfault : env.writeFault cell.key with
  | none => rw [if_pos rfl, texts_write_self hfault]
  | some e => rw [if_neg (Option.some_ne_none e), write_of_fault hfault]

/-- A write changes nothing in other cells. -/
theorem texts_write_of_ne {other : Cell} (h : other ≠ cell) :
    (x.write env cell v).texts other.key = x.texts other.key := by
  rw [write]
  cases env.writeFault cell.key with
  | some e => rfl
  | none => exact Function.update_of_ne (fun hkey => h (Cell.key_injective hkey)) ..

/-- A write leaves the engine alone. -/
theorem engine_write : (x.write env cell v).engine = x.engine := by
  rw [write]
  cases env.writeFault cell.key <;> rfl

/-- A write leaves the shared matcher alone. -/
theorem served_write : (x.write env cell v).served = x.served := by
  rw [write]
  cases env.writeFault cell.key <;> rfl

variable (env x)

/-- The policy URL in force. -/
def policyUrl (c : Config) : Except StoreError (Option String) :=
  match c.managedUrl? with
  | some url => .ok (some url)
  | none => (x.read env .policyUrl).map fun url => url.filter (· ≠ "")

end Enforcement

/-- Reading a cell that counts gives what is under its key. -/
theorem gives_readCell (cell : Cell) [Enforced cell] :
    (readCell cell).Gives env x (x.read env cell) x := by
  intro s hs
  subst hs
  rw [(reads_readCell cell).run_of_reads]
  refine ⟨?_, rfl⟩
  rw [readCell, Program.run_bind, Program.run_perform, Action.answer, Enforcement.read,
    texts_enforcement]
  cases env.readFault cell.key <;> rfl

/-- Writing a cell that counts does so, unless it fails. -/
theorem gives_writeCell (cell : Cell) [Enforced cell] (v : cell.Content) :
    (writeCell cell v).Gives env x (outcome (env.writeFault cell.key)) (x.write env cell v) := by
  intro s hs
  subst hs
  refine ⟨?_, enforcement_attempt _ s cell.key Enforced.key_notMem (s.store.get?_set _ _)⟩
  rw [writeCell, Program.run_perform, Action.answer]
  cases env.writeFault cell.key <;> rfl

/-- The policy URL in force is the managed one or else the one under its key. -/
theorem gives_policyUrl (c : Config) : (policyUrl c).Gives env x (x.policyUrl env c) x := by
  rw [policyUrl, Enforcement.policyUrl]
  cases c.managedUrl? with
  | some url => exact .pure _ x
  | none => exact .bind (gives_readCell env x .policyUrl) (.pure _ x)

section Texts

variable {env} {s : State}

/-- A cell that can be read and holds the text of a value is read as the value. -/
theorem run_readCell_of_text {cell : Cell} [Json.Persisted.Lawful cell.Content] {v : cell.Content}
    (hfault : env.readFault cell.key = none)
    (htext : s.store.get? cell.key = some (cell.encode v)) :
    (readCell cell).run env s = (.ok (some v), s) := by
  refine Prod.ext ?_ ((reads_readCell cell).run_of_reads env s)
  rw [readCell, Program.run_bind, Program.run_perform, Action.answer, hfault]
  dsimp only
  rw [htext, cell.decode_encode]
  rfl

/-- Stored block rules are read as they were stored. -/
theorem run_storedBlockRules_of_text {rules : List BlockRule}
    (hfault : env.readFault Cell.blockRules.key = none)
    (htext : s.store.get? Cell.blockRules.key = some (Cell.blockRules.encode rules)) :
    (storedBlockRules.run env s).1 = .ok rules := by
  rw [storedBlockRules, Program.run_bind, run_readCell_of_text hfault htext]
  rfl

/-- Stored redirect rules are read as they were stored. -/
theorem run_storedRedirectRules_of_text {rules : List RedirectRule}
    (hfault : env.readFault Cell.redirectRules.key = none)
    (htext : s.store.get? Cell.redirectRules.key = some (Cell.redirectRules.encode rules)) :
    (storedRedirectRules.run env s).1 = .ok rules := by
  rw [storedRedirectRules, Program.run_bind, run_readCell_of_text hfault htext]
  rfl

/-- A stored lock is read as it was stored. -/
theorem run_storedLock_of_text {lock : AccessLock}
    (hfault : env.readFault Cell.accessLock.key = none)
    (htext : s.store.get? Cell.accessLock.key = some (Cell.accessLock.encode lock)) :
    storedLock.run env s = (.ok lock, s) := by
  rw [storedLock, Program.run_bind, run_readCell_of_text hfault htext]
  rfl

end Texts

/-- Replacing the shared matcher takes and gives back the right to. -/
theorem all_setMatcher {P : Action → Prop} (hacquire : P (.acquire .matcher))
    (hserve : ∀ m, P (.serve m)) (hrelease : P (.release .matcher)) (m : Matcher) :
    (setMatcher m).All P :=
  .bind (.perform hacquire) fun _ => .bind (.perform (hserve m)) fun _ => .perform hrelease

/-- Replacing the shared matcher replaces it. -/
theorem gives_setMatcher (m : Matcher) :
    (setMatcher m).Gives env x () { x with served := some m } := by
  intro s hs
  subst hs
  exact ⟨rfl, rfl⟩

/-! ## The engine -/

namespace Surroundings

/-- Whether the engine does not do what it is asked. -/
def refuses : Bool := env.listFault.isSome || env.updateFault.isSome

/-- The engine does as it is asked if neither listing nor updating fails. -/
theorem refuses_eq_false_iff :
    env.refuses = false ↔ env.listFault = none ∧ env.updateFault = none := by
  rw [refuses, Bool.or_eq_false_iff, Option.isSome_eq_false_iff, Option.isSome_eq_false_iff,
    Option.isNone_iff_eq_none, Option.isNone_iff_eq_none]

/-- The engine does not do as it is asked if listing or updating fails. -/
theorem refuses_eq_true_iff :
    env.refuses = true ↔ env.listFault ≠ none ∨ env.updateFault ≠ none := by
  rw [refuses, Bool.or_eq_true, Option.isSome_iff_ne_none, Option.isSome_iff_ne_none]

/-- What the engine says when it is asked for its rules. -/
def listed (e : Engine) : Except EngineError (List BlockRule) :=
  match env.listFault with
  | some reason => .error (.refused reason)
  | none => .ok e.rules

/-- The engine after it is given an update. -/
def updated (u : RuleUpdate) (e : Engine) : Except EngineError Engine :=
  match env.updateFault with
  | some reason => .error (.refused reason)
  | none => e.apply u

/-- The engine after it is to hold these rules instead of its own. -/
def replaced (newRules : List BlockRule) (e : Engine) : Except EngineError Engine :=
  match env.listed e with
  | .error e => .error e
  | .ok installed => env.updated (BlockRule.reconcile installed newRules) e

/-- The engine after it is to hold no rule. -/
def cleared (e : Engine) : Engine := if env.refuses || e.rules.isEmpty then e else .empty

/-- An engine that does as it is asked holds no rule once it is cleared. -/
theorem rules_cleared_of_not_refuses (h : env.refuses = false) (e : Engine) :
    (env.cleared e).rules = [] := by
  rw [cleared, h, Bool.false_or]
  by_cases he : e.rules.isEmpty = true
  · rw [if_pos he]
    exact List.isEmpty_iff.1 he
  · rw [if_neg he]
    rfl

/-- An engine that does not is left as it is. -/
theorem cleared_of_refuses (h : env.refuses = true) (e : Engine) : env.cleared e = e := by
  rw [cleared, h, Bool.true_or, if_pos rfl]

/-- An engine that is cleared is the same when it is cleared again. -/
theorem cleared_cleared (e : Engine) : env.cleared (env.cleared e) = env.cleared e := by
  cases hrefuses : env.refuses with
  | true => rw [env.cleared_of_refuses hrefuses]
  | false =>
    have hrules := env.rules_cleared_of_not_refuses hrefuses e
    exact if_pos (by rw [hrules, List.isEmpty_nil, Bool.or_true])

/-- An engine that does as it is asked takes new rules of distinct numbers, whatever it holds. -/
theorem replaced_of_not_refuses (h : env.refuses = false) {newRules : List BlockRule}
    (hnew : Table.Ascending BlockRule.id newRules) (e : Engine) :
    env.replaced newRules e = .ok (.holding newRules) := by
  obtain ⟨hlist, hupdate⟩ := env.refuses_eq_false_iff.1 h
  rw [replaced, listed, hlist]
  show env.updated (BlockRule.reconcile e.rules newRules) e = _
  rw [updated, hupdate]
  exact e.apply_reconcile hnew

variable {env}

/-- The engine takes new rules only if it does as it is asked, and then holds their table. -/
theorem replaced_eq_ok {newRules : List BlockRule} {e e' : Engine}
    (h : env.replaced newRules e = .ok e') : env.listFault = none ∧ env.updateFault = none ∧
      e' = .holding (Table.ofList BlockRule.id newRules) := by
  rw [replaced, listed] at h
  cases hlist : env.listFault with
  | some reason =>
    rw [hlist] at h
    exact absurd h (by simp)
  | none =>
    rw [hlist] at h
    change env.updated (BlockRule.reconcile e.rules newRules) e = .ok e' at h
    rw [updated] at h
    cases hupdate : env.updateFault with
    | some reason =>
      rw [hupdate] at h
      exact absurd h (by simp)
    | none =>
      rw [hupdate] at h
      exact ⟨rfl, rfl, Engine.eq_holding_of_apply_reconcile h⟩

/-- An engine that has taken new rules takes them again, and is then the same. -/
theorem replaced_replaced {newRules : List BlockRule} {e e' : Engine}
    (h : env.replaced newRules e = .ok e') : env.replaced newRules e' = .ok e' := by
  obtain ⟨hlist, hupdate, rfl⟩ := replaced_eq_ok h
  rw [replaced, listed, hlist]
  show env.updated (BlockRule.reconcile (Table.ofList BlockRule.id newRules) newRules) _ = _
  rw [updated, hupdate]
  exact Engine.apply_reconcile_ofList newRules

end Surroundings

/-- The engine is asked for its rules. -/
theorem gives_listRules : (perform .listRules).Gives env x (env.listed x.engine) x := by
  intro s hs
  subst hs
  rw [Program.run_perform, Action.answer, Surroundings.listed]
  cases env.listFault <;> exact ⟨rfl, rfl⟩

/-- The engine takes an update. -/
theorem gives_update_of_ok {u : RuleUpdate} {e : Engine} (h : env.updated u x.engine = .ok e) :
    (perform (.update u)).Gives env x (.ok ()) { x with engine := e } := by
  intro s hs
  subst hs
  rw [Surroundings.updated] at h
  rw [Program.run_perform, Action.answer]
  cases hfault : env.updateFault with
  | some reason =>
    rw [hfault] at h
    exact absurd h (by simp)
  | none =>
    rw [hfault] at h
    change s.engine.apply u = .ok e at h
    simp only [h]
    exact ⟨trivial, rfl⟩

/-- The engine refuses an update. -/
theorem gives_update_of_error {u : RuleUpdate} {e : EngineError}
    (h : env.updated u x.engine = .error e) : (perform (.update u)).Gives env x (.error e) x := by
  intro s hs
  subst hs
  rw [Surroundings.updated] at h
  rw [Program.run_perform, Action.answer]
  cases hfault : env.updateFault with
  | some reason =>
    rw [hfault] at h
    exact ⟨congrArg _ (Except.error.inj h), rfl⟩
  | none =>
    rw [hfault] at h
    change s.engine.apply u = .error e at h
    simp only [h]
    exact ⟨trivial, trivial⟩

/-- The engine takes the removal of all its rules unless it refuses updates. -/
theorem Surroundings.updated_clearing (h : env.updateFault = none) (e : Engine) :
    env.updated (.clearing e.rules) e = .ok .empty := by
  rw [updated, h]
  exact e.apply_clearing

/-- Clearing the engine takes a list of its rules, an update and a notice. -/
theorem all_clearEngine {P : Action → Prop} (hlist : P .listRules) (hupdate : ∀ u, P (.update u))
    (hnote : ∀ n, P (.note n)) : clearEngine.All P := by
  refine .bind (.perform hlist) fun installed => ?_
  cases installed with
  | error e => exact .pure _
  | ok installed =>
    dsimp only
    split
    · exact .pure _
    · refine .bind (.perform (hupdate _)) fun updated => ?_
      cases updated with
      | error e => exact .pure _
      | ok u => exact .bind (.perform (hnote _)) fun _ => .pure _

/-- Clearing the engine clears it. -/
theorem leads_clearEngine :
    clearEngine.Leads env x { x with engine := env.cleared x.engine } := by
  have hlist := gives_listRules env x
  rw [Surroundings.listed] at hlist
  cases hfault : env.listFault with
  | some reason =>
    -- the rules cannot be listed, so none is removed
    rw [env.cleared_of_refuses (env.refuses_eq_true_iff.2 (.inl (by simp [hfault])))]
    rw [hfault] at hlist
    exact hlist.bind_leads (.pure _ x)
  | none =>
    rw [hfault] at hlist
    refine Program.Gives.bind_leads (a := .ok x.engine.rules) hlist ?_
    dsimp only
    by_cases hrules : x.engine.rules = []
    · -- there is nothing to remove, so the engine is not even asked
      have hcleared : env.cleared x.engine = x.engine := by
        rw [Surroundings.cleared, hrules, List.isEmpty_nil, Bool.or_true, if_pos rfl]
      rw [hcleared, hrules]
      exact .pure _ x
    · rw [if_neg fun h => hrules (Engine.rules_eq_nil_of_isEmpty_clearing h)]
      cases hupdate : env.updateFault with
      | some reason =>
        rw [env.cleared_of_refuses (env.refuses_eq_true_iff.2 (.inr (by simp [hupdate])))]
        have hupdated : env.updated (.clearing x.engine.rules) x.engine =
            .error (.refused reason) := by rw [Surroundings.updated, hupdate]
        exact (gives_update_of_error env x hupdated).bind_leads (.pure _ x)
      | none =>
        have hcleared : env.cleared x.engine = .empty := by
          rw [Surroundings.cleared, env.refuses_eq_false_iff.2 ⟨hfault, hupdate⟩]
          exact if_neg fun h => hrules (List.isEmpty_iff.1 h)
        rw [hcleared]
        refine (gives_update_of_ok env x (env.updated_clearing hupdate x.engine)).bind_leads ?_
        exact .bind leads_note fun _ => .pure _ _

end NavPolicy.Agent
