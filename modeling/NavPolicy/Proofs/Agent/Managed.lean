import NavPolicy.Agent.Schedule
import NavPolicy.Proofs.Agent.Authorisation
import NavPolicy.Proofs.Agent.OffRecord

/-!
# Managed policy URLs

An administrator may lay down the policy URL.  The agent then fetches from nowhere else and has nothing to
do with the stored URL: no program reads, sets or erases it (`Action.Heeds`).  This is a property of the
single actions, so it holds of calls one after the other and of the command loop with its tasks alike.

What a program does depends on the settings through the managed URL, where the empty one is none, and
through the time that pages have for their answers.  An agent with the empty managed URL is thus the same
agent as one without any.
-/

namespace NavPolicy.Agent

open Program (perform)

/-! ## Heeding a URL -/

/-- Whether an action fetches from nowhere but a URL and leaves the stored one aside. -/
def Action.Heeds (url : String) : Action → Prop
  | .fetch u => u = url
  | .read key | .write key _ | .erase key => key ≠ Cell.policyUrl.key
  | _ => True

/-- Whether between two states nothing was fetched but a URL, and the stored one has stayed. -/
structure State.HeedsUntil (url : String) (s t : State) : Prop where
  fetched : ∃ n, t.fetched = s.fetched ++ List.replicate n url
  text : t.store.get? Cell.policyUrl.key = s.store.get? Cell.policyUrl.key

variable {url : String} {env : Surroundings} {c c' : Config}

namespace Action

/-- An action that fetches nothing. -/
def FetchesNothing : Action → Prop
  | fetch _ => False
  | _ => True

/-- Nothing more is fetched by an action that fetches nothing. -/
theorem FetchesNothing.fetched_answer {a : Action} (h : a.FetchesNothing) (env : Surroundings)
    (s : State) : (a.answer env s).2.fetched = s.fetched := by
  cases a with
  | fetch u => exact h.elim
  | write key text => cases hfault : env.writeFault key <;> rw [answer, hfault] <;> rfl
  | erase key => cases hfault : env.writeFault key <;> rw [answer, hfault] <;> rfl
  | read key => rw [OnlyLooks.answer_eq env s (a := .read key) trivial]
  | listRules => rw [OnlyLooks.answer_eq env s (a := .listRules) trivial]
  | update u =>
    rw [answer]
    split
    · rfl
    · split <;> rfl
  | redirect o => rw [answer]; split <;> rfl
  | _ => rfl

/-- A record is not kept under the key of the policy URL. -/
theorem Records.heeds {a : Action} (h : a.Records) : a.Heeds url := by
  have hne {key : String} (hkey : key ∈ recordKeys) : key ≠ Cell.policyUrl.key := by
    rintro rfl
    exact absurd hkey (by decide)
  cases a with
  | write key text => exact hne h
  | erase key => exact hne h
  | now => trivial
  | note n => trivial
  | _ => exact h.elim

/-- An action that heeds a URL takes a state to one up to which it is heeded. -/
theorem Heeds.answer {a : Action} (h : a.Heeds url) {s t : State} (ht : s.HeedsUntil url t) :
    s.HeedsUntil url (a.answer env t).2 := by
  obtain ⟨⟨n, hfetched⟩, htext⟩ := ht
  constructor
  · by_cases hfetch : a.FetchesNothing
    · exact ⟨n, (hfetch.fetched_answer env t).trans hfetched⟩
    · cases a with
      | fetch u =>
        obtain rfl : u = url := h
        refine ⟨n + 1, ?_⟩
        show t.fetched ++ [u] = _
        rw [hfetched, List.replicate_succ', List.append_assoc]
      | _ => exact absurd trivial hfetch
  · rw [← htext]
    have hkeeps (hkeeps : a.KeepsStore) : (a.answer env t).2.store.get? Cell.policyUrl.key =
        t.store.get? Cell.policyUrl.key := by rw [hkeeps.store_answer]
    cases a with
    | write key text =>
      rw [Action.answer]
      cases env.writeFault key with
      | some e => rfl
      | none => exact (t.store.get?_set key text _).trans (if_neg fun hkey => h hkey.symm)
    | erase key =>
      rw [Action.answer]
      cases env.writeFault key with
      | some e => rfl
      | none => exact (t.store.get?_erase key _).trans (if_neg fun hkey => h hkey.symm)
    | _ => exact hkeeps trivial

end Action

/-- At the start nothing has been fetched. -/
theorem State.HeedsUntil.refl (url : String) (s : State) : s.HeedsUntil url s :=
  ⟨⟨0, (List.append_nil _).symm⟩, rfl⟩

/-! ## Programs that heed the managed URL -/

section Heeding

theorem heeds_readCell {cell : Cell} (h : cell ≠ .policyUrl) :
    (readCell cell).All (Action.Heeds url) := by
  refine .bind (.perform fun hkey => h (Cell.key_injective hkey)) fun answer => ?_
  cases answer <;> exact .pure _

theorem heeds_storedLock : storedLock.All (Action.Heeds url) :=
  .bind (heeds_readCell (by decide)) fun _ => .pure _

theorem heeds_writeCell {cell : Cell} (h : cell ≠ .policyUrl) (x : cell.Content) :
    (writeCell cell x).All (Action.Heeds url) :=
  .perform fun hkey => h (Cell.key_injective hkey)

theorem heeds_setMatcher (m : Matcher) : (setMatcher m).All (Action.Heeds url) :=
  all_setMatcher trivial (fun _ => trivial) trivial m

theorem heeds_of_records {α : Type} {p : Program α} (hp : p.All Action.Records) :
    p.All (Action.Heeds url) := hp.mono fun _ => Action.Records.heeds

theorem heeds_failSafe (result : String) : (failSafe result).All (Action.Heeds url) := by
  have hengine : clearEngine.All (Action.Heeds url) :=
    all_clearEngine trivial (fun _ => trivial) fun _ => trivial
  have hclear : clearRules.All (Action.Heeds url) :=
    all_clearRules heeds_setMatcher hengine (heeds_writeCell (by decide) [])
      (heeds_writeCell (by decide) []) fun _ => trivial
  refine .bind hclear fun r => ?_
  cases r with
  | ok u => exact heeds_of_records (records_noteResult result)
  | error e =>
    exact .bind (.perform trivial) fun _ => heeds_of_records (records_noteResult result)

theorem heeds_install (p : CompiledPolicy) : (install p).All (Action.Heeds url) := by
  refine .bind (.perform trivial) fun installed => ?_
  cases installed with
  | error e => exact .pure _
  | ok installed =>
    refine .bind (.perform trivial) fun updated => ?_
    cases updated with
    | error e => exact .pure _
    | ok u =>
      refine .bind (.perform trivial) fun _ => .bind (.notes (fun _ => trivial) _) fun _ => ?_
      refine .bind (heeds_setMatcher _) fun _ => ?_
      refine .bind (heeds_writeCell (by decide) _) fun blocks => ?_
      refine .bind (heeds_writeCell (by decide) _) fun redirects => ?_
      refine .bind (heeds_writeCell (by decide) _) fun lock => ?_
      cases blocks <;> cases redirects <;> cases lock <;>
        first | exact .pure _ | exact .bind (.perform trivial) fun _ => .pure _

/-- A refresh from a URL fetches from there only. -/
theorem heeds_refreshFrom (url : String) : (refreshFrom url).All (Action.Heeds url) := by
  have hfailSafe (n : Notice) (result : String) (e : Error) :
      (perform (.note n) >>= fun _ => failSafe result >>= fun _ => pure (.error e) :
        Program (Except Error RefreshOutcome)).All (Action.Heeds url) :=
    .bind (.perform trivial) fun _ => .bind (heeds_failSafe result) fun _ => .pure _
  refine .bind (heeds_of_records records_noteAttempt) fun _ => ?_
  refine .bind (.perform rfl) fun text => ?_
  cases text with
  | error e => exact hfailSafe _ _ _
  | ok text =>
    refine .bind (heeds_of_records records_noteSuccess) fun _ => ?_
    split
    · exact hfailSafe _ _ _
    · next doc _ =>
      obtain ⟨ns, heq⟩ := exists_installDocument_eq doc
      rw [heq]
      exact .bind (.notes (fun _ => trivial) ns) fun _ =>
        .bind (heeds_install doc.compile) fun _ => .pure _

end Heeding

section Managed

variable (h : c.managedUrl? = some url)

include h

/-- The managed URL is the policy URL, and nothing is looked at to tell so. -/
theorem policyUrl_of_managed : policyUrl c = pure (.ok (some url)) := by rw [policyUrl, h]

/-- A change of the policy URL is refused, and nothing is looked at to do so. -/
theorem ensureEditable_of_managed (session : Session) :
    ensureEditable c session = pure (.error .managed) := by
  rw [ensureEditable, h]
  rfl

theorem heeds_refresh : (refresh c).All (Action.Heeds url) := by
  rw [refresh, policyUrl_of_managed h]
  refine .bind (.perform trivial) fun _ => ?_
  show (refreshFrom url >>= _ : Program _).All _
  refine .bind (heeds_refreshFrom url) fun outcome => ?_
  exact .bind (.perform trivial) fun _ => .pure outcome

omit h in
theorem heeds_navigate (n : Navigation) : (navigate c n).All (Action.Heeds url) := by
  refine (follows_navigate c n).all fun st a answer st' hstep => ?_
  cases hstep with
  | scan _ hscans => exact hscans.of (fun _ _ => trivial) (fun _ => trivial) fun _ => trivial
  | read text => exact fun hkey => absurd hkey (by decide)
  | fail e => exact fun hkey => absurd hkey (by decide)
  | _ => trivial

omit h in
theorem heeds_fetchRecord : fetchRecord.All (Action.Heeds url) := by
  refine .bind (heeds_readCell (by decide)) fun attempt => ?_
  cases attempt with
  | error e => exact .pure _
  | ok attempt =>
    refine .bind (heeds_readCell (by decide)) fun result => ?_
    cases result with
    | error e => exact .pure _
    | ok result =>
      refine .bind (heeds_readCell (by decide)) fun success => ?_
      cases success <;> exact .pure _

theorem heeds_status : (status c).All (Action.Heeds url) := by
  rw [status, policyUrl_of_managed h]
  show (fetchRecord >>= _ : Program _).All _
  refine .bind heeds_fetchRecord fun record => ?_
  cases record with
  | error e => exact .pure _
  | ok record =>
    refine .bind heeds_storedLock fun lock => ?_
    cases lock with
    | error e => exact .pure _
    | ok lock =>
      refine .bind (.bind (heeds_readCell (by decide)) fun _ => .pure _) fun blocks => ?_
      cases blocks with
      | error e => exact .pure _
      | ok blocks =>
        refine .bind (.bind (heeds_readCell (by decide)) fun _ => .pure _) fun redirects => ?_
        cases redirects <;> exact .pure _

theorem heeds_setPolicyUrl (session : Session) (u : String) :
    (setPolicyUrl c session u).All (Action.Heeds url) := by
  rw [setPolicyUrl, ensureEditable_of_managed h]
  exact .pure _

theorem heeds_removePolicyUrl (session : Session) :
    (removePolicyUrl c session).All (Action.Heeds url) := by
  rw [removePolicyUrl, ensureEditable_of_managed h]
  exact .pure _

omit h in
theorem heeds_verifyPassword (password : String) :
    (verifyPassword password).All (Action.Heeds url) :=
  .bind heeds_storedLock fun lock => by cases lock <;> exact .pure _

omit h in
theorem heeds_unlock (session : Session) (password : String) :
    (unlock session password).All (Action.Heeds url) := by
  refine .bind heeds_storedLock fun lock => ?_
  cases lock with
  | error e => exact .pure _
  | ok lock =>
    dsimp only
    split
    · exact .bind (.perform trivial) fun _ => .pure _
    · exact .pure _

end Managed

/-! ## Calls -/

/-- A write fetches nothing. -/
theorem Enforcement.fetched_write {x : Enforcement} {cell : Cell} {v : cell.Content} :
    (x.write env cell v).fetched = x.fetched := by
  rw [write]
  cases env.writeFault cell.key <;> rfl

/-- A refresh from a policy URL fetches it once, whatever comes of it. -/
theorem Refreshed.fetched_eq {x y : Enforcement} {a : Except Error RefreshOutcome}
    (h : Refreshed env x c a y) (hurl : x.policyUrl env c = .ok (some url)) :
    y.fetched = x.fetched ++ [url] := by
  cases h with
  | unreadable h => exact absurd (h.symm.trans hurl) (by simp)
  | nothing h => exact absurd (h.symm.trans hurl) (by simp)
  | unavailable h =>
    obtain rfl := Enforcement.policyUrl_unique h hurl
    rw [Enforcement.cleared, Enforcement.fetched_write, Enforcement.fetched_write]
    rfl
  | malformed h =>
    obtain rfl := Enforcement.policyUrl_unique h hurl
    rw [Enforcement.cleared, Enforcement.fetched_write, Enforcement.fetched_write]
    rfl
  | refused h =>
    obtain rfl := Enforcement.policyUrl_unique h hurl
    rfl
  | installed h =>
    obtain rfl := Enforcement.policyUrl_unique h hurl
    rw [Enforcement.installed, Enforcement.fetched_write, Enforcement.fetched_write,
      Enforcement.fetched_write]
    rfl

/-- With a managed URL the agent stands as it would but for the policy URL, which is the managed one. -/
theorem status_of_managed (h : c.managedUrl? = some url) (env : Surroundings) (s : State) :
    ((status c).run env s).1 = Except.mapError Error.store (do
      let record ← (fetchRecord.run env s).1
      let lock ← (storedLock.run env s).1
      let blocks ← (storedBlockRules.run env s).1
      let redirects ← (storedRedirectRules.run env s).1
      return ⟨some url, true, record, lock.status, blocks.length, redirects.length⟩) := by
  rw [status, policyUrl_of_managed h]
  show ((fetchRecord >>= _ : Program _).run env s).1 = _
  rw [Program.run_bind, reads_fetchRecord.run_of_reads]
  cases (fetchRecord.run env s).1 with
  | error e => rfl
  | ok record =>
    dsimp only
    rw [Program.run_bind, reads_storedLock.run_of_reads]
    cases (storedLock.run env s).1 with
    | error e => rfl
    | ok lock =>
      dsimp only
      rw [Program.run_bind, reads_storedBlockRules.run_of_reads]
      cases (storedBlockRules.run env s).1 with
      | error e => rfl
      | ok blocks =>
        dsimp only
        rw [Program.run_bind, reads_storedRedirectRules.run_of_reads, h]
        cases (storedRedirectRules.run env s).1 with
        | error e => rfl
        | ok redirects => rfl

namespace World

variable {w : World} {k : Call}

/-- A call heeds the managed URL. -/
theorem heedsUntil_call (h : c.managedUrl? = some url) {s : State}
    (hs : s.HeedsUntil url w.state) : s.HeedsUntil url (w.call c k).2.state := by
  have hrun {α : Type} {p : Program α} (hp : p.All (Action.Heeds url)) :
      s.HeedsUntil url (p.run k.env w.state).2 := hp.run k.env (fun _ _ ha => ha.answer) hs
  rw [call]
  cases k.request with
  | refresh => exact hrun (heeds_refresh h)
  | navigate n => exact hrun (heeds_navigate n)
  | status => exact hrun (heeds_status h)
  | verifyPassword password => exact hrun (heeds_verifyPassword password)
  | unlock i password => exact hrun (heeds_unlock _ password)
  | setPolicyUrl i u => exact hrun (heeds_setPolicyUrl h _ u)
  | removePolicyUrl i => exact hrun (heeds_removePolicyUrl h _)

/-- Calls heed the managed URL. -/
theorem heedsUntil_after (h : c.managedUrl? = some url) (w : World) (ks : List Call) :
    w.state.HeedsUntil url (w.after c ks).state :=
  after_of_call c (I := fun v => w.state.HeedsUntil url v.state) (P := fun _ => True)
    (fun _ _ _ hv => heedsUntil_call h hv) (.refl url w.state) fun _ _ => trivial

/-- Every refresh fetches the managed URL once, and no other call fetches anything. -/
theorem fetched_call (h : c.managedUrl? = some url) :
    (w.call c k).2.state.fetched =
      if k.request = .refresh then w.state.fetched ++ [url] else w.state.fetched := by
  split
  · next hrefresh =>
    rw [call, hrefresh]
    have hurl : w.state.enforcement.policyUrl k.env c = .ok (some url) := by
      rw [Enforcement.policyUrl, h]
    exact (refreshed c w.state).fetched_eq hurl
  · next hrefresh =>
    by_cases hnavigate : ∃ n, k.request = .navigate n
    · obtain ⟨n, hrequest⟩ := hnavigate
      rw [call, hrequest]
      refine (navigates_navigate c n).run_eq k.env (f := State.fetched) (fun a s ha => ?_) w.state
      refine Action.FetchesNothing.fetched_answer ?_ k.env s
      cases a <;> first | exact trivial | exact ha.elim
    · refine state_call_of_edits (I := fun s => s.fetched = w.state.fetched) (fun a s ha hs => ?_)
        hrefresh (not_exists.1 hnavigate) rfl
      refine (Action.FetchesNothing.fetched_answer ?_ k.env s).trans hs
      cases a <;> first | exact trivial | exact ha.elim

/-- A change of the policy URL is refused, and changes nothing. -/
theorem call_edit_of_managed (h : c.managedUrl? = some url) {i : Nat}
    (hedit : k.request.editor? = some i) : w.call c k = (.edited (.error .managed), w) := by
  refine call_of_not_editable hedit ?_
  unfold editable
  rw [h]
  rfl

end World

/-! ## The command loop -/

/-- A turn of a program that heeds a URL leaves one, and a state up to which the URL is heeded. -/
theorem Program.All.heeds_advance {α : Type} {p : Program α} (hp : p.All (Action.Heeds url))
    (env : Surroundings) (held : List Resource) {s t : State} (ht : s.HeedsUntil url t) :
    (p.advance env held t).1.All (Action.Heeds url) ∧
      s.HeedsUntil url (p.advance env held t).2.1 := by
  cases p with
  | done x => exact ⟨hp, ht⟩
  | ask a next =>
    rw [Program.advance]
    split
    · exact ⟨hp, ht⟩
    · exact ⟨hp.2 _, hp.1.answer ht⟩

/-- Whether what the loop is doing itself heeds a URL. -/
def LoopPhase.Heeds (url : String) : LoopPhase → Prop
  | starting p => p.All (Action.Heeds url)
  | answering p => p.All (Action.Heeds url)
  | listening | waiting | stopped => True

section Tasks

variable (h : c.managedUrl? = some url)

include h

theorem heeds_refreshTask : (refreshTask c).All (Action.Heeds url) := by
  refine .bind (heeds_refresh h) fun r => ?_
  cases r with
  | error e => exact .perform trivial
  | ok outcome =>
    cases outcome with
    | noSource => exact .pure _
    | applied stats => exact .perform trivial

omit h in
theorem heeds_navigateTask (n : Navigation) : (navigateTask c n).All (Action.Heeds url) := by
  refine .bind (heeds_navigate n) fun r => ?_
  cases r with
  | error e => exact .perform trivial
  | ok target => exact .pure _

theorem heeds_startup : (startup c).All (Action.Heeds url) := by
  rw [startup, policyUrl_of_managed h]
  exact heeds_refreshTask h

omit h in
theorem heeds_verifyCommand (password : String) :
    (verifyCommand password).All (Action.Heeds url) := by
  refine .bind (heeds_verifyPassword password) fun r => ?_
  cases r with
  | error e => exact .bind (.perform trivial) fun _ => .pure _
  | ok ok => exact .pure _

end Tasks

namespace Schedule

/-- Whether the loop and its tasks have heeded a URL since a state, and will go on to. -/
structure Heeds (url : String) (s : State) (m : Schedule) : Prop where
  phase : m.phase.Heeds url
  tasks : ∀ p ∈ m.tasks.programs, p.All (Action.Heeds url)
  state : s.HeedsUntil url m.tasks.state

namespace Heeds

variable {s : State} {m : Schedule}

/-- A task that heeds the URL may be started. -/
theorem spawn (hm : m.Heeds url s) {p : Program Unit} (hp : p.All (Action.Heeds url)) :
    (m.spawn p).Heeds url s :=
  ⟨hm.phase, List.forall_mem_append.2 ⟨hm.tasks, List.forall_mem_singleton.2 hp⟩, hm.state⟩

/-- The loop may turn to anything else that heeds the URL. -/
theorem turnTo (hm : m.Heeds url s) (phase : LoopPhase) (hphase : phase.Heeds url)
    (queue : List Command) (replies : List Reply) :
    Schedule.Heeds url s { m with phase, queue, replies } := ⟨hphase, hm.tasks, hm.state⟩

/-- A notice may be given. -/
theorem note (hm : m.Heeds url s) (n : Notice) : (m.note n).Heeds url s :=
  ⟨hm.phase, hm.tasks, hm.state.fetched, hm.state.text⟩

/-- The loop may take the end of a task. -/
theorem join (hm : m.Heeds url s) : m.join.Heeds url s := by
  rw [Schedule.join]
  split
  · exact ⟨hm.phase, hm.tasks, hm.state⟩
  · exact hm

/-- The loop may take no more commands. -/
theorem close (hm : m.Heeds url s) : m.close.Heeds url s := by
  have hclosed := hm.turnTo .waiting trivial []
  rw [Schedule.close]
  split
  · exact hclosed _
  · exact (hclosed _).note _

/-- The loop may take any command. -/
theorem takeCommand (h : c.managedUrl? = some url) (hm : m.Heeds url s) :
    (m.takeCommand c).Heeds url s := by
  rw [Schedule.takeCommand]
  cases m.queue with
  | nil => exact hm.close
  | cons command queue =>
    have hrest : Schedule.Heeds url s { m with queue } := hm.turnTo m.phase hm.phase queue _
    cases command with
    | refresh => exact hrest.spawn (heeds_refreshTask h)
    | navigate n => exact hrest.spawn (heeds_navigateTask n)
    | verifyPassword password =>
      exact hrest.turnTo (.answering (verifyCommand password)) (heeds_verifyCommand password) _ _
    | status =>
      have hstatus : (do return .status (← Agent.status c) : Program Reply).All (Action.Heeds url) :=
        .bind (heeds_status h) fun _ => .pure _
      exact hrest.turnTo (.answering _) hstatus _ _
    | shutdown => exact hrest.close

/-- The loop may go on with its own work. -/
theorem loopTurn (h : c.managedUrl? = some url) (hm : m.Heeds url s) :
    (m.loopTurn env c).Heeds url s := by
  obtain ⟨phase, queue, tasks, replies, joined⟩ := m
  have hphase := hm.phase
  cases phase with
  | starting p =>
    obtain ⟨hprogram, hstate⟩ := Program.All.heeds_advance hphase env tasks.held hm.state
    cases p with
    | done u => exact hm.turnTo .listening trivial _ _
    | ask a next => exact ⟨hprogram, hm.tasks, hstate⟩
  | listening => exact hm.takeCommand h
  | answering p =>
    obtain ⟨hprogram, hstate⟩ := Program.All.heeds_advance hphase env tasks.held hm.state
    cases p with
    | done reply => exact hm.turnTo .listening trivial _ _
    | ask a next => exact ⟨hprogram, hm.tasks, hstate⟩
  | waiting =>
    show Schedule.Heeds url s (if _ then _ else _)
    split
    · exact (hm.turnTo .stopped trivial _ _).note _
    · exact hm
  | stopped => exact hm

/-- Any choice may be made. -/
theorem choose (h : c.managedUrl? = some url) (hm : m.Heeds url s) (choice : Choice) :
    (m.choose env c choice).Heeds url s := by
  cases choice with
  | loop => exact hm.loopTurn h
  | tick =>
    rw [Schedule.choose]
    split
    · exact hm.spawn (heeds_refreshTask h)
    · exact hm
  | join =>
    rw [Schedule.choose]
    split
    · exact hm.join
    · exact hm
  | task place =>
    rw [Schedule.choose, Interleaving.turn]
    cases hplace : m.tasks.programs[place]? with
    | none => exact hm
    | some p =>
      have hp := hm.tasks p (List.mem_of_getElem? hplace)
      obtain ⟨hprogram, hstate⟩ := hp.heeds_advance env m.tasks.held hm.state
      refine ⟨hm.phase, fun q hq => ?_, hstate⟩
      rcases List.mem_or_eq_of_mem_set hq with hq | rfl
      · exact hm.tasks q hq
      · exact hprogram

/-- Any choices may be made, from the start of the loop on. -/
theorem run_start (h : c.managedUrl? = some url) (env : Surroundings) (queue : List Command)
    (s : State) (choices : List Choice) :
    ((Schedule.start c queue s).run env c choices).Heeds url s := by
  have hstart : (Schedule.start c queue s).Heeds url s :=
    ⟨heeds_startup h, fun p hp => absurd hp List.not_mem_nil, .refl url s⟩
  rw [Schedule.run]
  generalize Schedule.start c queue s = m at hstart
  induction choices generalizing m with
  | nil => exact hstart
  | cons choice choices ih => exact ih _ (hstart.choose h choice)

end Heeds

end Schedule

/-! ## Settings that come to the same -/

/-- Whether two settings make the same agent: they have the same managed URL, where the empty one is none,
and give pages the same time. -/
structure Config.Alike (c c' : Config) : Prop where
  managedUrl? : c.managedUrl? = c'.managedUrl?
  probeTimeoutMs : c.probeTimeoutMs = c'.probeTimeoutMs

/-- The empty managed URL is none. -/
theorem Config.alike_of_empty (h : c.managedPolicyUrl = some "") :
    Config.Alike c { c with managedPolicyUrl := none } :=
  ⟨by rw [Config.managedUrl?, h]; rfl, rfl⟩

namespace Config.Alike

variable (h : Config.Alike c c')

include h

theorem policyUrl_eq : policyUrl c = policyUrl c' := by rw [policyUrl, policyUrl, h.managedUrl?]

theorem refresh_eq : refresh c = refresh c' := by rw [refresh, refresh, h.policyUrl_eq]

theorem resolve_eq (candidates : List Candidate) : resolve c candidates = resolve c' candidates := by
  induction candidates with
  | nil => rfl
  | cons candidate rest ih =>
    cases candidate with
    | inline url => rfl
    | remote url =>
      rw [resolve, resolve, h.probeTimeoutMs, ih]
      congr 1
      funext answer
      cases answer <;> rfl

theorem scan_eq (tab : Int32) (url : String) (rules : List RedirectRule) :
    scan c tab url rules = scan c' tab url rules := by
  induction rules with
  | nil => rfl
  | cons rule rules ih => rw [scan, scan, h.resolve_eq, ih]

theorem navigate_eq (n : Navigation) : navigate c n = navigate c' n := by
  have hscan : scan c = scan c' := by
    funext tab url rules
    exact h.scan_eq tab url rules
  rw [navigate, navigate, hscan]

theorem status_eq : status c = status c' := by
  rw [status, status, h.policyUrl_eq, h.managedUrl?]

theorem ensureEditable_eq (session : Session) :
    ensureEditable c session = ensureEditable c' session := by
  rw [ensureEditable, ensureEditable, h.managedUrl?]

theorem setPolicyUrl_eq (session : Session) (url : String) :
    setPolicyUrl c session url = setPolicyUrl c' session url := by
  rw [setPolicyUrl, setPolicyUrl, h.ensureEditable_eq]

theorem removePolicyUrl_eq (session : Session) :
    removePolicyUrl c session = removePolicyUrl c' session := by
  rw [removePolicyUrl, removePolicyUrl, h.ensureEditable_eq]

/-- Agents with settings that come to the same answer every call alike. -/
theorem call_eq (w : World) (k : Call) : w.call c k = w.call c' k := by
  rw [World.call, World.call, h.refresh_eq, h.status_eq]
  simp only [h.navigate_eq, h.setPolicyUrl_eq, h.removePolicyUrl_eq]

/-- Agents with settings that come to the same go through the same states. -/
theorem trace_eq (w : World) (ks : List Call) : w.trace c ks = w.trace c' ks := by
  induction ks generalizing w with
  | nil => rfl
  | cons k ks ih => rw [World.trace, World.trace, h.call_eq, ih]

/-- Agents with settings that come to the same leave the same world behind. -/
theorem after_eq (w : World) (ks : List Call) : w.after c ks = w.after c' ks := by
  rw [World.after, World.after]
  simp only [h.call_eq]

theorem refreshTask_eq : refreshTask c = refreshTask c' := by
  rw [refreshTask, refreshTask, h.refresh_eq]

theorem service_eq (command : Command) : command.service c = command.service c' := by
  cases command with
  | refresh => exact congrArg Service.task h.refreshTask_eq
  | navigate n =>
    rw [Command.service, Command.service, navigateTask, navigateTask, h.navigate_eq]
  | status => rw [Command.service, Command.service, h.status_eq]
  | _ => rfl

theorem start_eq (queue : List Command) (s : State) :
    Schedule.start c queue s = Schedule.start c' queue s := by
  rw [Schedule.start, Schedule.start, startup, startup, h.policyUrl_eq, h.refreshTask_eq]

theorem choose_eq (env : Surroundings) (m : Schedule) (choice : Choice) :
    m.choose env c choice = m.choose env c' choice := by
  have htake (m : Schedule) : m.takeCommand c = m.takeCommand c' := by
    rw [Schedule.takeCommand, Schedule.takeCommand]
    simp only [h.service_eq]
  cases choice with
  | loop =>
    show m.loopTurn env c = m.loopTurn env c'
    rw [Schedule.loopTurn.eq_def, Schedule.loopTurn.eq_def, htake]
  | tick => rw [Schedule.choose, Schedule.choose, h.refreshTask_eq]
  | join => rfl
  | task place => rfl

/-- The command loop of agents with settings that come to the same goes alike in every schedule. -/
theorem run_eq (env : Surroundings) (m : Schedule) (choices : List Choice) :
    m.run env c choices = m.run env c' choices := by
  rw [Schedule.run, Schedule.run]
  simp only [funext fun m => funext (h.choose_eq env m)]

end Config.Alike

/-! ## Who decides on the policy source -/

theorem Config.managedUrl?_eq_some (h : c.managedPolicyUrl = some url) (hurl : url ≠ "") :
    c.managedUrl? = some url := by
  rw [Config.managedUrl?, h]
  simp [hurl]

/-- Over every run of calls, whoever calls and whatever fails, and in every schedule of the command loop.

With a managed URL that is not empty, that one is the policy URL, whether or not the stored one can be read;
every refresh fetches it once, and nothing else is ever fetched; the agent tells it as managed whenever
it can tell how it stands, which depends on the other stored values alone; every change of the policy
URL is refused as managed and changes nothing; and the stored URL stays as it is.

With the empty managed URL every call is answered as without any and leaves the same state, and the
command loop goes the same way. -/
theorem managed_url_decides (c : Config) (w : World) (ks : List Call) (k : Call) :
    (∀ url, c.managedPolicyUrl = some url → url ≠ "" →
      let v := w.after c ks
      let v' := (v.call c k).2
      (∀ env s, (policyUrl c).run env s = (.ok (some url), s)) ∧
      (∃ n, v.state.fetched = w.state.fetched ++ List.replicate n url) ∧
      v'.state.fetched =
        (if k.request = .refresh then v.state.fetched ++ [url] else v.state.fetched) ∧
      (k.request = .status → (v.call c k).1 = .told (Except.mapError Error.store do
        let record ← (fetchRecord.run k.env v.state).1
        let lock ← (storedLock.run k.env v.state).1
        let blocks ← (storedBlockRules.run k.env v.state).1
        let redirects ← (storedRedirectRules.run k.env v.state).1
        return ⟨some url, true, record, lock.status, blocks.length, redirects.length⟩)) ∧
      (∀ i, k.request.editor? = some i → v.call c k = (.edited (.error .managed), v)) ∧
      v'.state.store.get? Cell.policyUrl.key = w.state.store.get? Cell.policyUrl.key ∧
      ∀ env queue choices,
        let s := ((Schedule.start c queue w.state).run env c choices).tasks.state
        (∃ n, s.fetched = w.state.fetched ++ List.replicate n url) ∧
          s.store.get? Cell.policyUrl.key = w.state.store.get? Cell.policyUrl.key) ∧
    (c.managedPolicyUrl = some "" →
      let unmanaged := { c with managedPolicyUrl := none }
      (∀ env s, (policyUrl c).run env s = (policyUrl unmanaged).run env s) ∧
      w.trace c ks = w.trace unmanaged ks ∧ w.after c ks = w.after unmanaged ks ∧
      ∀ env queue choices, (Schedule.start c queue w.state).run env c choices =
        (Schedule.start unmanaged queue w.state).run env unmanaged choices) := by
  refine ⟨fun url hurl hne => ?_, fun hempty => ?_⟩
  · have h := Config.managedUrl?_eq_some hurl hne
    intro v v'
    have hv : w.state.HeedsUntil url v.state := World.heedsUntil_after h w ks
    refine ⟨fun env s => ?_, hv.fetched, World.fetched_call h, fun hstatus => ?_,
      fun i hedit => World.call_edit_of_managed h hedit, (World.heedsUntil_call h hv).text,
      fun env queue choices => ?_⟩
    · rw [policyUrl_of_managed h]
      rfl
    · rw [World.call, hstatus]
      exact congrArg Answer.told (status_of_managed h k.env v.state)
    · have hloop := (Schedule.Heeds.run_start h env queue w.state choices).state
      exact ⟨hloop.fetched, hloop.text⟩
  · have h := Config.alike_of_empty hempty
    intro unmanaged
    refine ⟨fun env s => by rw [h.policyUrl_eq], h.trace_eq w ks, h.after_eq w ks,
      fun env queue choices => ?_⟩
    rw [h.start_eq, h.run_eq]

/-- With a managed URL a store that holds another one and cannot be read makes no difference: a refresh
fetches the managed one, and the other one stays.  With the empty managed URL the stored one is fetched. -/
theorem managed_url_decides_over_stored :
    let managed := { Config.default with managedPolicyUrl := some "https://a.example" }
    let empty := { Config.default with managedPolicyUrl := some "" }
    let env := Surroundings.offline "no route" ⟨0, 0⟩
    let unreadable := { env with readFault := fun _ => some .busy }
    let w := World.fresh (.initial (Store.empty.set Cell.policyUrl.key "\"https://b.example\"") .empty)
    managed.managedPolicyUrl = some "https://a.example" ∧ "https://a.example" ≠ "" ∧
      (w.call managed ⟨unreadable, .refresh⟩).2.state.fetched = ["https://a.example"] ∧
      w.call managed ⟨unreadable, .removePolicyUrl 0⟩ = (.edited (.error .managed), w) ∧
      empty.managedPolicyUrl = some "" ∧
      w.trace empty [⟨env, .refresh⟩] = w.trace Config.default [⟨env, .refresh⟩] ∧
      (w.after empty [⟨env, .refresh⟩]).state.fetched = ["https://b.example"] := by
  intro managed empty env unreadable w
  have hne : "https://a.example" ≠ "" := by decide
  have hrefresh := (managed_url_decides managed w [] ⟨unreadable, .refresh⟩).1 _ rfl hne
  have hremove := (managed_url_decides managed w [] ⟨unreadable, .removePolicyUrl 0⟩).1 _ rfl hne
  have hempty := (managed_url_decides empty w [⟨env, .refresh⟩] ⟨env, .refresh⟩).2 rfl
  refine ⟨rfl, hne, hrefresh.2.2.1, hremove.2.2.2.2.1 0 rfl, rfl, hempty.2.1, ?_⟩
  decide +kernel

end NavPolicy.Agent
