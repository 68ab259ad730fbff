import NavPolicy.Proofs.Agent.Calls
import NavPolicy.Proofs.Agent.Protocol

/-!
# The record of fetches decides nothing

Let an agent run twice through the same calls, where the two runs differ in what the record of fetches
says at the start, in failures to read or write it, and in the clock.  Then every call is answered alike,
and after every call both runs enforce the same (`record_decides_nothing`).

Entries in the record stand between the actions that matter, and what comes of them is looked at, so the
two runs do not even perform the same actions.  They meet again after each entry: what only keeps the
record has no value to tell (`Program.Indifferent.of_onlyRecords`), and what leaves the record alone is
answered alike (`Program.Indifferent.of_unrecorded`).  A program put together from such parts is
indifferent to the record.
-/

namespace NavPolicy.Agent

open Program (perform)

/-! ## Alike but for the record -/

/-- Whether surroundings differ in the clock and in failures on the record of fetches at most. -/
structure Surroundings.AlikeOffRecord (env env' : Surroundings) : Prop where
  source : env.source = env'.source
  page : env.page = env'.page
  readFault : ∀ key ∉ recordKeys, env.readFault key = env'.readFault key
  writeFault : ∀ key ∉ recordKeys, env.writeFault key = env'.writeFault key
  listFault : env.listFault = env'.listFault
  updateFault : env.updateFault = env'.updateFault
  listening : env.listening = env'.listening

/-- Whether states differ in the record of fetches, in notices and in the counts of accesses to the clock
and the store at most. -/
structure State.AlikeOffRecord (s t : State) : Prop where
  texts : ∀ key ∉ recordKeys, s.store.get? key = t.store.get? key
  engine : s.engine = t.engine
  served : s.served = t.served
  sent : s.sent = t.sent
  probed : s.probed = t.probed
  fetched : s.fetched = t.fetched

variable {env env' : Surroundings} {s t : State}

/-- States are alike but for the record if they enforce the same. -/
theorem alikeOffRecord_iff : s.AlikeOffRecord t ↔ s.enforcement = t.enforcement := by
  constructor
  · intro h
    simp only [State.enforcement, Enforcement.mk.injEq]
    refine ⟨funext fun key => ?_, h.engine, h.served, h.sent, h.probed, h.fetched⟩
    split
    · rfl
    · next hkey => exact h.texts key hkey
  · intro h
    refine ⟨fun key hkey => ?_, congrArg Enforcement.engine h, congrArg Enforcement.served h,
      congrArg Enforcement.sent h, congrArg Enforcement.probed h, congrArg Enforcement.fetched h⟩
    have htexts := congrFun (congrArg Enforcement.texts h) key
    simp only [State.enforcement, if_neg hkey] at htexts
    exact htexts

/-- Whether an action has nothing to do with the record of fetches or the clock. -/
def Action.Unrecorded : Action → Prop
  | read key | write key _ | erase key => key ∉ recordKeys
  | now => False
  | _ => True

/-- An attempt on the store under a key that counts comes to the same where it fails alike. -/
theorem attempt_alike {fault : Option IoError} {key : String} (hkey : key ∉ recordKeys)
    (hst : s.enforcement = t.enforcement) {text : Option String} {store store' : Store}
    (hstore : ∀ k, store.get? k = if k = key then text else s.store.get? k)
    (hstore' : ∀ k, store'.get? k = if k = key then text else t.store.get? k) :
    (s.attempt fault { s with store }).1 = (t.attempt fault { t with store := store' }).1 ∧
      (s.attempt fault { s with store }).2.enforcement =
        (t.attempt fault { t with store := store' }).2.enforcement := by
  rw [enforcement_attempt fault s key hkey hstore, enforcement_attempt fault t key hkey hstore', hst]
  cases fault <;> exact ⟨rfl, rfl⟩

/-- An action that has nothing to do with the record is answered alike, and does the same. -/
theorem Action.Unrecorded.answer_alike {a : Action} (ha : a.Unrecorded)
    (henv : env.AlikeOffRecord env') (hst : s.enforcement = t.enforcement) :
    (a.answer env s).1 = (a.answer env' t).1 ∧
      (a.answer env s).2.enforcement = (a.answer env' t).2.enforcement := by
  obtain ⟨htexts, hengine, hserved, -, hprobed, hfetched⟩ := alikeOffRecord_iff.2 hst
  cases a with
  | read key =>
    simp only [answer, ← henv.readFault key ha, htexts key ha]
    cases env.readFault key <;> exact ⟨rfl, hst⟩
  | write key text =>
    simp only [answer, ← henv.writeFault key ha]
    exact attempt_alike ha hst (s.store.get?_set key text) (t.store.get?_set key text)
  | erase key =>
    simp only [answer, ← henv.writeFault key ha]
    exact attempt_alike ha hst (s.store.get?_erase key) (t.store.get?_erase key)
  | listRules =>
    simp only [answer, ← henv.listFault, hengine]
    cases env.listFault <;> exact ⟨rfl, hst⟩
  | update u =>
    simp only [answer, ← henv.updateFault, hengine]
    cases env.updateFault with
    | some reason => exact ⟨rfl, hst⟩
    | none =>
      cases t.engine.apply u with
      | error e => exact ⟨rfl, hst⟩
      | ok engine => exact ⟨rfl, congrArg (fun x : Enforcement => { x with engine }) hst⟩
  | fetch url =>
    refine ⟨?_, congrArg (fun x : Enforcement => { x with fetched := x.fetched ++ [url] }) hst⟩
    show env.source s.fetched.length url = env'.source t.fetched.length url
    rw [henv.source, hfetched]
  | probe url milliseconds =>
    refine ⟨?_, congrArg (fun x : Enforcement => { x with probed := x.probed ++ [url] }) hst⟩
    show (env.page s.probed.length url).getD _ = (env'.page t.probed.length url).getD _
    rw [henv.page, hprobed]
  | redirect o =>
    simp only [answer, ← henv.listening]
    cases env.listening with
    | true => exact ⟨rfl, congrArg (fun x : Enforcement => { x with sent := x.sent ++ [o] }) hst⟩
    | false => exact ⟨rfl, hst⟩
  | now => exact ha.elim
  | note n => exact ⟨rfl, hst⟩
  | served => exact ⟨hserved, hst⟩
  | serve m => exact ⟨rfl, congrArg (fun x : Enforcement => { x with served := some m }) hst⟩
  | acquire r => exact ⟨rfl, hst⟩
  | release r => exact ⟨rfl, hst⟩

/-! ## Programs that are indifferent to the record -/

namespace Program

variable {α β : Type}

/-- Whether a program comes to the same in surroundings and from states that are alike but for the
record. -/
def Indifferent (p : Program α) : Prop :=
  ∀ ⦃env env' : Surroundings⦄ ⦃s t : State⦄, env.AlikeOffRecord env' →
    s.enforcement = t.enforcement →
      (p.run env s).1 = (p.run env' t).1 ∧
        (p.run env s).2.enforcement = (p.run env' t).2.enforcement

namespace Indifferent

variable {p : Program α} {f : α → Program β}

/-- A program that does nothing is indifferent. -/
theorem pure (x : α) : (Pure.pure x : Program α).Indifferent := fun _ _ _ _ _ hst => ⟨rfl, hst⟩

/-- A program is indifferent if its parts are. -/
theorem bind (hp : p.Indifferent) (hf : ∀ x, (f x).Indifferent) : (p >>= f).Indifferent := by
  intro env env' s t henv hst
  obtain ⟨hvalue, hafter⟩ := hp henv hst
  rw [run_bind, run_bind, ← hvalue]
  exact hf _ henv hafter

/-- A program that has nothing to do with the record is indifferent to it. -/
theorem of_unrecorded (hp : p.All Action.Unrecorded) : p.Indifferent := by
  intro env env' s t henv hst
  induction p generalizing s t with
  | done x => exact ⟨rfl, hst⟩
  | ask a next ih =>
    obtain ⟨hanswer, hafter⟩ := hp.1.answer_alike henv hst
    have hnext := ih (a.answer env s).1 (hp.2 _) hafter
    simp only [run, ← hanswer]
    exact hnext

/-- A program that only keeps the record, and has no value to tell, is indifferent to it. -/
theorem of_onlyRecords {p : Program Unit} (hp : p.All Action.OnlyRecords) : p.Indifferent := by
  intro env env' s t henv hst
  rw [hp.enforcement_run env s, hp.enforcement_run env' t]
  exact ⟨rfl, hst⟩

end Indifferent

end Program

/-! ## The parts of calls that leave the record alone -/

section Unrecorded

variable (c : Config)

theorem unrecorded_readCell (cell : Cell) [Enforced cell] :
    (readCell cell).All Action.Unrecorded := by
  refine .bind (.perform Enforced.key_notMem) fun answer => ?_
  cases answer <;> exact .pure _

theorem unrecorded_writeCell (cell : Cell) [Enforced cell] (x : cell.Content) :
    (writeCell cell x).All Action.Unrecorded := .perform Enforced.key_notMem

theorem unrecorded_policyUrl : (policyUrl c).All Action.Unrecorded := by
  rw [policyUrl]
  split
  · exact .pure _
  · exact .bind (unrecorded_readCell .policyUrl) fun _ => .pure _

theorem unrecorded_storedLock : storedLock.All Action.Unrecorded :=
  .bind (unrecorded_readCell .accessLock) fun _ => .pure _

theorem unrecorded_setMatcher (m : Matcher) : (setMatcher m).All Action.Unrecorded :=
  all_setMatcher trivial (fun _ => trivial) trivial m

theorem unrecorded_clearRules : clearRules.All Action.Unrecorded :=
  all_clearRules unrecorded_setMatcher (all_clearEngine trivial (fun _ => trivial) fun _ => trivial)
    (unrecorded_writeCell .blockRules []) (unrecorded_writeCell .redirectRules []) fun _ => trivial

theorem unrecorded_install (p : CompiledPolicy) : (install p).All Action.Unrecorded := by
  refine .bind (.perform trivial) fun installed => ?_
  cases installed with
  | error e => exact .pure _
  | ok installed =>
    refine .bind (.perform trivial) fun updated => ?_
    cases updated with
    | error e => exact .pure _
    | ok u =>
      refine .bind (.perform trivial) fun _ => .bind (.notes (fun _ => trivial) _) fun _ => ?_
      refine .bind (unrecorded_setMatcher _) fun _ => ?_
      refine .bind (unrecorded_writeCell .blockRules _) fun blocks => ?_
      refine .bind (unrecorded_writeCell .redirectRules _) fun redirects => ?_
      refine .bind (unrecorded_writeCell .accessLock _) fun lock => ?_
      cases blocks <;> cases redirects <;> cases lock <;>
        first | exact .pure _ | exact .bind (.perform trivial) fun _ => .pure _

theorem unrecorded_installDocument (doc : PolicyDocument) :
    (installDocument doc).All Action.Unrecorded := by
  obtain ⟨ns, heq⟩ := exists_installDocument_eq doc
  rw [heq]
  refine .bind (.notes (fun _ => trivial) ns) fun _ => ?_
  exact .bind (unrecorded_install doc.compile) fun _ => .pure _

theorem unrecorded_navigate (n : Navigation) : (navigate c n).All Action.Unrecorded := by
  refine (follows_navigate c n).all fun st a answer st' hstep => ?_
  cases hstep with
  | scan _ hscans => exact hscans.of (fun _ _ => trivial) (fun _ => trivial) fun _ => trivial
  | read text => exact Enforced.key_notMem
  | fail e => exact Enforced.key_notMem
  | _ => trivial

theorem unrecorded_verifyPassword (password : String) :
    (verifyPassword password).All Action.Unrecorded :=
  .bind unrecorded_storedLock fun lock => by cases lock <;> exact .pure _

theorem unrecorded_unlock (session : Session) (password : String) :
    (unlock session password).All Action.Unrecorded := by
  refine .bind unrecorded_storedLock fun lock => ?_
  cases lock with
  | error e => exact .pure _
  | ok lock =>
    dsimp only
    split
    · exact .bind (.perform trivial) fun _ => .pure _
    · exact .pure _

theorem unrecorded_ensureEditable (session : Session) :
    (ensureEditable c session).All Action.Unrecorded := by
  rw [ensureEditable]
  split
  · exact .pure _
  · exact .bind unrecorded_storedLock fun lock => by cases lock <;> exact .pure _

theorem unrecorded_setPolicyUrl (session : Session) (url : String) :
    (setPolicyUrl c session url).All Action.Unrecorded := by
  refine .bind (unrecorded_ensureEditable c session) fun leave => ?_
  cases leave with
  | error e => exact .pure _
  | ok u =>
    refine .bind (unrecorded_writeCell .policyUrl _) fun written => ?_
    cases written with
    | error e => exact .pure _
    | ok u => exact .bind (.perform trivial) fun _ => .pure _

theorem unrecorded_removePolicyUrl (session : Session) :
    (removePolicyUrl c session).All Action.Unrecorded := by
  have hurl : Cell.policyUrl.key ∉ recordKeys := Enforced.key_notMem
  have hlock : Cell.accessLock.key ∉ recordKeys := Enforced.key_notMem
  refine .bind (unrecorded_ensureEditable c session) fun leave => ?_
  cases leave with
  | error e => exact .pure _
  | ok u =>
    refine .bind (.perform hurl) fun erased => ?_
    cases erased with
    | error e => exact .pure _
    | ok u =>
      refine .bind (.perform hlock) fun erased => ?_
      cases erased with
      | error e => exact .pure _
      | ok u => exact .bind (.perform trivial) fun _ => .pure _

end Unrecorded

/-! ## Refreshes -/

section Refreshing

open Program.Indifferent

/-- The fail-safe drops all rules before it makes an entry, and looks at no entry. -/
theorem indifferent_failSafe (result : String) : (failSafe result).Indifferent := by
  have hresult : (noteResult result).Indifferent := of_onlyRecords (onlyRecords_noteResult result)
  refine bind (of_unrecorded unrecorded_clearRules) fun r => ?_
  cases r with
  | ok u => exact hresult
  | error e => exact bind (of_unrecorded (.perform trivial)) fun _ => hresult

theorem indifferent_refreshFrom (url : String) : (refreshFrom url).Indifferent := by
  have hfailSafe (n : Notice) (result : String) (e : Error) :
      (perform (.note n) >>= fun _ => failSafe result >>= fun _ => pure (.error e) :
        Program (Except Error RefreshOutcome)).Indifferent :=
    bind (of_unrecorded (.perform trivial)) fun _ =>
      bind (indifferent_failSafe result) fun _ => .pure _
  refine bind (of_onlyRecords onlyRecords_noteAttempt) fun _ => ?_
  refine bind (of_unrecorded (.perform trivial)) fun text => ?_
  cases text with
  | error e => exact hfailSafe _ _ _
  | ok text =>
    refine bind (of_onlyRecords onlyRecords_noteSuccess) fun _ => ?_
    split
    · exact hfailSafe _ _ _
    · exact of_unrecorded (unrecorded_installDocument _)

theorem indifferent_refreshNothing : refreshNothing.Indifferent :=
  bind (of_onlyRecords onlyRecords_noteAttempt) fun _ =>
    bind (of_onlyRecords (onlyRecords_noteResult _)) fun _ =>
      bind (of_unrecorded (.perform trivial)) fun _ => .pure _

/-- A refresh is indifferent to the record that it keeps. -/
theorem indifferent_refresh (c : Config) : (refresh c).Indifferent := by
  refine bind (of_unrecorded (.perform trivial)) fun _ => ?_
  have hend (outcome : Except Error RefreshOutcome) :
      (perform (.release .refresh) >>= fun _ => pure outcome).Indifferent :=
    bind (of_unrecorded (.perform trivial)) fun _ => .pure _
  refine bind (of_unrecorded (unrecorded_policyUrl c)) fun url => ?_
  cases url with
  | error e => exact bind (.pure _) hend
  | ok url =>
    cases url with
    | none => exact bind indifferent_refreshNothing hend
    | some url => exact bind (indifferent_refreshFrom url) hend

end Refreshing

/-! ## Runs of calls -/

/-- Whether calls ask for the same in surroundings that are alike but for the record. -/
structure Call.AlikeOffRecord (k k' : Call) : Prop where
  request : k.request = k'.request
  env : k.env.AlikeOffRecord k'.env

namespace World

/-- Whether the agents of two worlds are alike but for the record, and their callers have the same
sessions. -/
structure AlikeOffRecord (w v : World) : Prop where
  state : w.state.AlikeOffRecord v.state
  session : w.session = v.session

/-- The answers to calls, each with the state after it. -/
def trace (c : Config) (w : World) : List Call → List (Answer × State)
  | [] => []
  | k :: ks => ((w.call c k).1, (w.call c k).2.state) :: (w.call c k).2.trace c ks

variable {c : Config} {w v : World} {k k' : Call}

/-- Every call but the one that asks how the agent stands is answered alike, and keeps worlds alike. -/
theorem AlikeOffRecord.call (h : w.AlikeOffRecord v) (hk : k.AlikeOffRecord k')
    (hstatus : k.request ≠ .status) :
    (w.call c k).1 = (v.call c k').1 ∧ (w.call c k).2.AlikeOffRecord (v.call c k').2 := by
  have hst := alikeOffRecord_iff.1 h.state
  have hsession := h.session
  have hrun {α : Type} {p : Program α} (hp : p.Indifferent) :
      (p.run k.env w.state).1 = (p.run k'.env v.state).1 ∧
        (p.run k.env w.state).2.AlikeOffRecord (p.run k'.env v.state).2 :=
    ⟨(hp hk.env hst).1, alikeOffRecord_iff.2 (hp hk.env hst).2⟩
  rw [World.call, World.call, ← hk.request]
  cases hrequest : k.request with
  | refresh =>
    obtain ⟨hvalue, hafter⟩ := hrun (indifferent_refresh c)
    exact ⟨congrArg Answer.refreshed hvalue, hafter, hsession⟩
  | navigate n =>
    obtain ⟨hvalue, hafter⟩ := hrun (.of_unrecorded (unrecorded_navigate c n))
    exact ⟨congrArg Answer.navigated hvalue, hafter, hsession⟩
  | status => exact absurd hrequest hstatus
  | verifyPassword password =>
    obtain ⟨hvalue, hafter⟩ := hrun (.of_unrecorded (unrecorded_verifyPassword password))
    exact ⟨congrArg Answer.verified hvalue, hafter, hsession⟩
  | unlock i password =>
    obtain ⟨hvalue, hafter⟩ := hrun (.of_unrecorded (unrecorded_unlock (w.session i) password))
    dsimp only
    rw [← hsession]
    exact ⟨congrArg (fun r => Answer.unlocked r.1) hvalue, hafter,
      congrArg (fun r => Function.update w.session i r.2) hvalue⟩
  | setPolicyUrl i url =>
    obtain ⟨hvalue, hafter⟩ := hrun (.of_unrecorded (unrecorded_setPolicyUrl c (w.session i) url))
    dsimp only
    rw [← hsession]
    exact ⟨congrArg Answer.edited hvalue, hafter, rfl⟩
  | removePolicyUrl i =>
    obtain ⟨hvalue, hafter⟩ := hrun (.of_unrecorded (unrecorded_removePolicyUrl c (w.session i)))
    dsimp only
    rw [← hsession]
    exact ⟨congrArg Answer.edited hvalue, hafter, rfl⟩

end World

/-- Two runs of the same calls by the same sessions, among them none that asks how the agent stands, on
agents that differ in the record of fetches, with failures on the record and a clock that may be others
in each run at every call: the calls are answered alike, and after each of them the engine, the shared
matcher, every stored text but those of the record, the overrides sent, the pages asked and the URLs
fetched are the same. -/
theorem record_decides_nothing (c : Config) {s t : State} (hst : s.AlikeOffRecord t)
    (session : Nat → Session) {ks ks' : List Call}
    (hks : List.Forall₂ Call.AlikeOffRecord ks ks') (hstatus : ∀ k ∈ ks, k.request ≠ .status) :
    List.Forall₂ (fun x y => x.1 = y.1 ∧ x.2.AlikeOffRecord y.2)
      ((World.mk s session).trace c ks) ((World.mk t session).trace c ks') := by
  have hworlds : (World.mk s session).AlikeOffRecord (World.mk t session) := ⟨hst, rfl⟩
  generalize World.mk s session = w at hworlds ⊢
  generalize World.mk t session = v at hworlds ⊢
  induction hks generalizing w v with
  | nil => exact .nil
  | cons hk _ ih =>
    rw [List.forall_mem_cons] at hstatus
    obtain ⟨hanswer, hafter⟩ := hworlds.call (c := c) hk hstatus.1
    exact .cons ⟨hanswer, hafter.state⟩ (ih hstatus.2 _ _ hafter)

/-- A record that holds no times and can be neither read nor written, and a clock that runs ahead, change
nothing about a refresh, a navigation and a refresh that gets no policy. -/
theorem record_decides_nothing_of_garbage :
    let c : Config := { Config.default with managedPolicyUrl := some "https://policy.example" }
    let env : Surroundings :=
      { Surroundings.offline "no route" ⟨0, 0⟩ with
        source := fun count _ =>
          if count = 0 then .ok "urls: [\x7burl: 'a*', html: new\x7d, url: b]" else .error (.status 500) }
    let fault (key : String) : Option IoError := if key ∈ recordKeys then some .busy else none
    let env' : Surroundings :=
      { env with clock := fun n => ⟨n + 7, 0⟩, readFault := fault, writeFault := fault }
    let t := State.initial (recordKeys.foldl (fun store key => store.set key "?") .empty) .empty
    let calls (env : Surroundings) : List Call :=
      [⟨env, .refresh⟩, ⟨env, .navigate (.loading 1 "abc")⟩, ⟨env, .refresh⟩]
    let run := (World.fresh (.initial .empty .empty)).trace c (calls env)
    let run' := (World.fresh t).trace c (calls env')
    run.map (fun x => x.2.engine.rules.length) = [1, 1, 0] ∧
      List.Forall₂ (fun x y => x.1 = y.1 ∧ x.2.AlikeOffRecord y.2) run run' := by
  intro c env fault env' t calls run run'
  have hcounts (key : String) (hkey : key ∉ recordKeys) : fault key = none := if_neg hkey
  have henv : env.AlikeOffRecord env' :=
    ⟨rfl, rfl, fun key hkey => (hcounts key hkey).symm, fun key hkey => (hcounts key hkey).symm, rfl,
      rfl, rfl⟩
  have ht : (State.initial .empty .empty).AlikeOffRecord t := by
    refine ⟨fun key hkey => ?_, rfl, rfl, rfl, rfl, rfl⟩
    simp only [recordKeys, List.mem_cons, List.not_mem_nil, or_false, not_or] at hkey
    simp [t, recordKeys, State.initial, Store.get?_set, hkey]
  have hcalls : List.Forall₂ Call.AlikeOffRecord (calls env) (calls env') :=
    .cons ⟨rfl, henv⟩ (.cons ⟨rfl, henv⟩ (.cons ⟨rfl, henv⟩ .nil))
  refine ⟨by decide +kernel, ?_⟩
  exact record_decides_nothing c ht (fun _ => .fresh) hcalls (by decide)

end NavPolicy.Agent
