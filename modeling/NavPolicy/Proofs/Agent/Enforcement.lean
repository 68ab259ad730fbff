import NavPolicy.Agent.Operations
import NavPolicy.Proofs.Agent.Program
import NavPolicy.Proofs.Store.Cell

/-!
# What an agent enforces

The notices, the clock and the record of fetches decide nothing.  `State.enforcement` is a state without
them.  Programs that only look at the world leave the whole state as it is, and programs that otherwise
only keep records leave what is enforced as it is; the rest of the theory is about `Enforcement` alone.
-/

namespace NavPolicy.Agent

open Program (perform notes)

/-- The keys of the record of fetches. -/
def recordKeys : List String := [Cell.lastAttempt.key, Cell.lastResult.key, Cell.lastSuccess.key]

/-- What is enforced, and what was done to enforce it. -/
structure Enforcement where
  /-- The text under each key but those of the record of fetches. -/
  texts : String → Option String
  engine : Engine
  served : Option Matcher
  sent : List Override
  probed : List String
  fetched : List String

/-- What stands under a key is replaced by a text, or by nothing, unless that fails. -/
def Enforcement.put (x : Enforcement) (fault : Option IoError) (key : String)
    (text : Option String) : Enforcement :=
  match fault with
  | some _ => x
  | none => { x with texts := Function.update x.texts key text }

/-- What a state enforces. -/
def State.enforcement (s : State) : Enforcement where
  texts key := if key ∈ recordKeys then none else s.store.get? key
  engine := s.engine
  served := s.served
  sent := s.sent
  probed := s.probed
  fetched := s.fetched

/-- A cell that is no part of the record of fetches, so that what it holds counts. -/
class Enforced (cell : Cell) : Prop where
  key_notMem : cell.key ∉ recordKeys

instance : Enforced .policyUrl := ⟨by decide⟩

instance : Enforced .blockRules := ⟨by decide⟩

instance : Enforced .redirectRules := ⟨by decide⟩

instance : Enforced .accessLock := ⟨by decide⟩

/-- The text of a cell that counts is enforced. -/
theorem texts_enforcement (cell : Cell) [Enforced cell] (s : State) :
    s.enforcement.texts cell.key = s.store.get? cell.key := if_neg Enforced.key_notMem

/-- The text of a cell that counts is the one that is enforced. -/
theorem get?_of_enforcement {s : State} {x : Enforcement} (h : s.enforcement = x) (cell : Cell)
    [Enforced cell] : s.store.get? cell.key = x.texts cell.key := by
  rw [← h, texts_enforcement]

/-! ## Actions -/

namespace Action

/-- Whether an action reads the store. -/
def Reads : Action → Prop
  | read _ => True
  | _ => False

/-- Whether an action keeps a record: a notice, a look at the clock or an entry in the record of
fetches. -/
def Records : Action → Prop
  | write key _ | erase key => key ∈ recordKeys
  | now | note _ => True
  | _ => False

/-- Whether an action looks at the world and changes nothing. -/
def OnlyLooks : Action → Prop
  | read _ | listRules | served | acquire _ | release _ => True
  | _ => False

/-- Whether an action changes nothing but notices, the clock and the record of fetches. -/
def OnlyRecords : Action → Prop
  | write key _ | erase key => key ∈ recordKeys
  | now | note _ => True
  | a => a.OnlyLooks

/-- What holds of all reads holds of an action that is one. -/
theorem Reads.of {P : Action → Prop} (hread : ∀ key, P (.read key)) {a : Action} (h : a.Reads) :
    P a := by
  cases a with
  | read key => exact hread key
  | _ => exact h.elim

variable (env : Surroundings) (s : State)

/-- An action that only looks leaves the state as it is. -/
theorem OnlyLooks.answer_eq {a : Action} (h : a.OnlyLooks) : (a.answer env s).2 = s := by
  cases a with
  | read key => rw [answer]; split <;> rfl
  | listRules => rw [answer]; split <;> rfl
  | served => rfl
  | acquire r => rfl
  | release r => rfl
  | _ => exact h.elim

end Action

section Attempts

variable (fault : Option IoError) (s : State) (key : String) {store : Store}

/-- An attempt to replace what stands under a key that counts does so, unless it fails. -/
theorem enforcement_attempt (h : key ∉ recordKeys) {text : Option String}
    (hstore : ∀ k, store.get? k = if k = key then text else s.store.get? k) :
    (s.attempt fault { s with store }).2.enforcement = s.enforcement.put fault key text := by
  cases fault with
  | some e => rfl
  | none =>
    simp only [State.attempt, Enforcement.put, State.enforcement, Enforcement.mk.injEq, and_true]
    funext k
    rw [hstore, Function.update_apply]
    by_cases hk : k = key
    · rw [if_pos hk, if_pos hk, if_neg (hk ▸ h)]
    · rw [if_neg hk, if_neg hk]

/-- An attempt on the store under a key of the record changes nothing that is enforced. -/
theorem enforcement_attempt_record (h : key ∈ recordKeys) {text : Option String}
    (hstore : ∀ k, store.get? k = if k = key then text else s.store.get? k) :
    (s.attempt fault { s with store }).2.enforcement = s.enforcement := by
  cases fault with
  | some e => rfl
  | none =>
    simp only [State.attempt, State.enforcement, Enforcement.mk.injEq, and_true]
    funext k
    by_cases hk : k = key
    · rw [if_pos (hk ▸ h), if_pos (hk ▸ h)]
    · rw [hstore, if_neg hk]

end Attempts

/-- An action that only records changes nothing that is enforced. -/
theorem Action.OnlyRecords.enforcement_answer {a : Action} (h : a.OnlyRecords) (env : Surroundings)
    (s : State) : (a.answer env s).2.enforcement = s.enforcement := by
  cases a with
  | write key text => exact enforcement_attempt_record _ s key h (s.store.get?_set key text)
  | erase key => exact enforcement_attempt_record _ s key h (s.store.get?_erase key)
  | now => rfl
  | note n => rfl
  | read key => rw [OnlyLooks.answer_eq env s (a := .read key) trivial]
  | listRules => rw [OnlyLooks.answer_eq env s (a := .listRules) trivial]
  | served => rfl
  | acquire r => rfl
  | release r => rfl
  | _ => exact h.elim

/-- An action that keeps a record does nothing else. -/
theorem Action.Records.onlyRecords {a : Action} (h : a.Records) : a.OnlyRecords := by
  cases a <;> first | exact h | exact h.elim

/-! ## Programs -/

namespace Program.All

variable {α : Type} {p : Program α} (env : Surroundings)

/-- A program that only reads leaves the state as it is. -/
theorem run_of_reads (h : p.All Action.Reads) (s : State) : (p.run env s).2 = s := by
  have hlooks : p.All Action.OnlyLooks := h.mono fun _ => Action.Reads.of fun _ => trivial
  exact hlooks.run_eq (f := id) env (fun _ t ha => ha.answer_eq env t) s

/-- A program that only records changes nothing that is enforced. -/
theorem enforcement_run (h : p.All Action.OnlyRecords) (s : State) :
    (p.run env s).2.enforcement = s.enforcement :=
  h.run_eq env (fun _ t ha => ha.enforcement_answer env t) s

end Program.All

/-! ## What programs come to -/

namespace Program

variable {α β : Type} (env : Surroundings)

/-- From every state that enforces `x`, the program comes to one that enforces `y`. -/
def Leads (p : Program α) (x y : Enforcement) : Prop :=
  ∀ s : State, s.enforcement = x → (p.run env s).2.enforcement = y

/-- From every state that enforces `x`, the program comes to one that enforces `y`, with the value `a`. -/
def Gives (p : Program α) (x : Enforcement) (a : α) (y : Enforcement) : Prop :=
  ∀ s : State, s.enforcement = x → (p.run env s).1 = a ∧ (p.run env s).2.enforcement = y

variable {env} {p : Program α} {f : α → Program β} {x y z : Enforcement} {a : α} {b : β}

/-- A program that only records leads nowhere. -/
theorem Leads.of_onlyRecords (hp : p.All Action.OnlyRecords) (x : Enforcement) : p.Leads env x x :=
  fun s hs => (hp.enforcement_run env s).trans hs

/-- What gives a value leads to where it does. -/
theorem Gives.leads (hp : p.Gives env x a y) : p.Leads env x y := fun s hs => (hp s hs).2

/-- A program that does nothing leads nowhere. -/
theorem Leads.pure (a : α) (x : Enforcement) : (Pure.pure a : Program α).Leads env x x :=
  .of_onlyRecords (.pure a) x

/-- A program that does nothing gives its value. -/
theorem Gives.pure (a : α) (x : Enforcement) : (Pure.pure a : Program α).Gives env x a x :=
  fun _ hs => ⟨rfl, hs⟩

/-- A composed program does what its parts do, one after the other. -/
theorem Leads.bind (hp : p.Leads env x y) (hf : ∀ a, (f a).Leads env y z) :
    (p >>= f).Leads env x z := by
  intro s hs
  rw [run_bind]
  exact hf _ _ (hp s hs)

/-- A composed program does what its parts do, one after the other. -/
theorem Gives.bind (hp : p.Gives env x a y) (hf : (f a).Gives env y b z) :
    (p >>= f).Gives env x b z := by
  intro s hs
  obtain ⟨rfl, hy⟩ := hp s hs
  rw [run_bind]
  exact hf _ hy

/-- A value that is known decides where the rest leads. -/
theorem Gives.bind_leads (hp : p.Gives env x a y) (hf : (f a).Leads env y z) :
    (p >>= f).Leads env x z := by
  intro s hs
  obtain ⟨rfl, hy⟩ := hp s hs
  rw [run_bind]
  exact hf _ hy

/-- Where the rest gives the same whatever the value of the first part, that value is of no account. -/
theorem Leads.bind_gives (hp : p.Leads env x y) (hf : ∀ a, (f a).Gives env y b z) :
    (p >>= f).Gives env x b z := by
  intro s hs
  rw [run_bind]
  exact hf _ _ (hp s hs)

end Program

section Steps

variable {env : Surroundings} {x : Enforcement}

/-- An action that only records leads nowhere. -/
theorem leads_perform {a : Action} (h : a.OnlyRecords) : (perform a).Leads env x x :=
  .of_onlyRecords (.perform h) x

/-- A notice leads nowhere. -/
theorem leads_note {n : Notice} : (perform (.note n)).Leads env x x := leads_perform trivial

/-- Waiting for a resource leads nowhere. -/
theorem leads_acquire {r : Resource} : (perform (.acquire r)).Leads env x x :=
  leads_perform trivial

/-- Giving back a resource leads nowhere. -/
theorem leads_release {r : Resource} : (perform (.release r)).Leads env x x :=
  leads_perform trivial

end Steps

section Reading

variable (c : Config)

theorem reads_readCell (cell : Cell) : (readCell cell).All Action.Reads :=
  .bind (.perform trivial) fun answer => by cases answer <;> exact .pure _

theorem reads_storedUrl : storedUrl.All Action.Reads :=
  .bind (reads_readCell _) fun _ => .pure _

theorem reads_storedLock : storedLock.All Action.Reads :=
  .bind (reads_readCell _) fun _ => .pure _

theorem reads_storedBlockRules : storedBlockRules.All Action.Reads :=
  .bind (reads_readCell _) fun _ => .pure _

theorem reads_storedRedirectRules : storedRedirectRules.All Action.Reads :=
  .bind (reads_readCell _) fun _ => .pure _

theorem reads_policyUrl : (policyUrl c).All Action.Reads := by
  rw [policyUrl]
  split
  · exact .pure _
  · exact reads_storedUrl

theorem reads_fetchRecord : fetchRecord.All Action.Reads := by
  refine .bind (reads_readCell _) fun attempt => ?_
  cases attempt with
  | error e => exact .pure _
  | ok attempt =>
    refine .bind (reads_readCell _) fun result => ?_
    cases result with
    | error e => exact .pure _
    | ok result =>
      refine .bind (reads_readCell _) fun success => ?_
      cases success <;> exact .pure _

theorem reads_status : (status c).All Action.Reads := by
  refine .bind (reads_policyUrl c) fun url => ?_
  cases url with
  | error e => exact .pure _
  | ok url =>
    refine .bind reads_fetchRecord fun record => ?_
    cases record with
    | error e => exact .pure _
    | ok record =>
      refine .bind reads_storedLock fun lock => ?_
      cases lock with
      | error e => exact .pure _
      | ok lock =>
        refine .bind reads_storedBlockRules fun blocks => ?_
        cases blocks with
        | error e => exact .pure _
        | ok blocks =>
          refine .bind reads_storedRedirectRules fun redirects => ?_
          cases redirects <;> exact .pure _

theorem reads_verifyPassword (password : String) :
    (verifyPassword password).All Action.Reads :=
  .bind reads_storedLock fun lock => by cases lock <;> exact .pure _

theorem reads_ensureEditable (session : Session) :
    (ensureEditable c session).All Action.Reads := by
  rw [ensureEditable]
  split
  · exact .pure _
  · exact .bind reads_storedLock fun lock => by cases lock <;> exact .pure _

end Reading

section Recording

theorem records_notes (ns : List Notice) : (Program.notes ns).All Action.Records :=
  .notes (fun _ => trivial) ns

theorem records_noteFailure (what : String) (r : Except StoreError Unit) :
    (noteFailure what r).All Action.Records := by
  cases r with
  | ok u => exact .pure _
  | error e => exact .perform trivial

/-- Writing a cell of the record only records. -/
theorem records_writeCell {cell : Cell} (h : cell.key ∈ recordKeys) (x : cell.Content) :
    (writeCell cell x).All Action.Records := .perform h

theorem records_noteAttempt : noteAttempt.All Action.Records := by
  refine .bind (.perform trivial) fun t => ?_
  exact .bind (records_writeCell (by decide) _) fun _ => records_noteFailure _ _

theorem records_noteResult (result : String) : (noteResult result).All Action.Records :=
  .bind (records_writeCell (by decide) _) fun _ => records_noteFailure _ _

theorem records_noteSuccess : noteSuccess.All Action.Records := by
  refine .bind (.perform trivial) fun t => .bind ?_ fun _ => records_noteFailure _ _
  refine .bind (records_writeCell (by decide) _) fun r => ?_
  cases r with
  | error e => exact .pure _
  | ok u => exact records_writeCell (by decide) _

/-- Installing a document is giving notices, installing what it compiles to, and telling its numbers. -/
theorem exists_installDocument_eq (doc : PolicyDocument) :
    ∃ ns, installDocument doc = notes ns >>= fun _ => install doc.compile >>= fun r =>
      pure (r.map fun _ => .applied doc.stats) := by
  -- what is told in the end is said by cases in the program
  have hend {f : Except Error Unit → Program (Except Error RefreshOutcome)}
      (hf : ∀ r, f r = pure (r.map fun _ => .applied doc.stats)) (ns : List Notice) :
      (notes ns >>= fun _ => install doc.compile >>= f) = notes ns >>= fun _ =>
        install doc.compile >>= fun r => pure (r.map fun _ => .applied doc.stats) := by
    rw [funext hf]
  rw [installDocument]
  dsimp only
  split
  · rw [Program.notes_concat]
    exact ⟨_, hend (fun r => by cases r <;> rfl) _⟩
  · exact ⟨_, hend (fun r => by cases r <;> rfl) _⟩

theorem onlyRecords_notes (ns : List Notice) : (Program.notes ns).All Action.OnlyRecords :=
  (records_notes ns).mono fun _ => Action.Records.onlyRecords

theorem onlyRecords_noteAttempt : noteAttempt.All Action.OnlyRecords :=
  records_noteAttempt.mono fun _ => Action.Records.onlyRecords

theorem onlyRecords_noteResult (result : String) : (noteResult result).All Action.OnlyRecords :=
  (records_noteResult result).mono fun _ => Action.Records.onlyRecords

theorem onlyRecords_noteSuccess : noteSuccess.All Action.OnlyRecords :=
  records_noteSuccess.mono fun _ => Action.Records.onlyRecords

variable {env : Surroundings} {x : Enforcement}

/-- Notices lead nowhere. -/
theorem leads_notes {ns : List Notice} : (notes ns).Leads env x x :=
  .of_onlyRecords (onlyRecords_notes ns) x

/-- Recording that a fetch is tried leads nowhere. -/
theorem leads_noteAttempt : noteAttempt.Leads env x x := .of_onlyRecords onlyRecords_noteAttempt x

/-- Recording how a fetch went leads nowhere. -/
theorem leads_noteResult {result : String} : (noteResult result).Leads env x x :=
  .of_onlyRecords (onlyRecords_noteResult result) x

/-- Recording that a fetch has succeeded leads nowhere. -/
theorem leads_noteSuccess : noteSuccess.Leads env x x := .of_onlyRecords onlyRecords_noteSuccess x

end Recording

end NavPolicy.Agent
