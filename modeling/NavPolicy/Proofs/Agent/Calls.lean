import NavPolicy.Proofs.Agent.Navigating
import NavPolicy.Proofs.Agent.Refreshing

/-!
# Runs of calls

An agent is called one time after another, by callers that each have a session of their own.  Each call
comes with surroundings of its own, so that the source, the pages, the clock and all failures may be
others at every call.  A world is the state of the agent with the sessions of all callers.
-/

namespace NavPolicy.Agent

/-- What an agent may be called to do; sessions are told apart by numbers. -/
inductive Request where
  | refresh
  | navigate (n : Navigation)
  | status
  | verifyPassword (password : String)
  | unlock (session : Nat) (password : String)
  | setPolicyUrl (session : Nat) (url : String)
  | removePolicyUrl (session : Nat)
  deriving DecidableEq

/-- A request and the surroundings in which it is answered. -/
structure Call where
  env : Surroundings
  request : Request

/-- The answer to a request. -/
inductive Answer where
  | refreshed (r : Except Error RefreshOutcome)
  | navigated (r : Except Error (Option String))
  | told (r : Except Error Status)
  | verified (r : Except Error Bool)
  | unlocked (r : Except Error Bool)
  | edited (r : Except Error Unit)

/-- The state of an agent and the sessions of its callers. -/
structure World where
  state : State
  session : Nat → Session

namespace World

variable (c : Config)

/-- The world of an agent in a state whose callers have presented no password. -/
def fresh (s : State) : World := ⟨s, fun _ => .fresh⟩

/-- The answer to a call, and the world after it. -/
def call (w : World) (k : Call) : Answer × World :=
  match k.request with
  | .refresh =>
    let (r, state) := (refresh c).run k.env w.state
    (.refreshed r, { w with state })
  | .navigate n =>
    let (r, state) := (navigate c n).run k.env w.state
    (.navigated r, { w with state })
  | .status =>
    let (r, state) := (status c).run k.env w.state
    (.told r, { w with state })
  | .verifyPassword password =>
    let (r, state) := (verifyPassword password).run k.env w.state
    (.verified r, { w with state })
  | .unlock i password =>
    let ((r, session), state) := (unlock (w.session i) password).run k.env w.state
    (.unlocked r, ⟨state, Function.update w.session i session⟩)
  | .setPolicyUrl i url =>
    let (r, state) := (setPolicyUrl c (w.session i) url).run k.env w.state
    (.edited r, { w with state })
  | .removePolicyUrl i =>
    let (r, state) := (removePolicyUrl c (w.session i)).run k.env w.state
    (.edited r, { w with state })

/-- The world after calls. -/
def after (w : World) (ks : List Call) : World := ks.foldl (fun w k => (w.call c k).2) w

/-- The world after calls and one more. -/
theorem after_concat (w : World) (ks : List Call) (k : Call) :
    w.after c (ks ++ [k]) = ((w.after c ks).call c k).2 := List.foldl_concat _ w k ks

/-- Whether a call is a refresh whose rules the engine takes. -/
def Installs (w : World) (k : Call) : Prop :=
  k.request = .refresh ∧ ∃ url text doc engine,
    ((policyUrl c).run k.env w.state).1 = .ok (some url) ∧
      k.env.source w.state.fetched.length url = .ok text ∧
      PolicyDocument.ofText text = .ok doc ∧
      k.env.replaced doc.blockRules w.state.engine = .ok engine

/-- A refresh whose text is a policy that the engine takes installs it. -/
theorem installs_of_replaced {c : Config} {w : World} {k : Call} {url text : String}
    {doc : PolicyDocument} {engine : Engine} (hrequest : k.request = .refresh)
    (hurl : w.state.enforcement.policyUrl k.env c = .ok (some url))
    (hsource : k.env.source w.state.fetched.length url = .ok text)
    (htext : PolicyDocument.ofText text = .ok doc)
    (hreplaced : k.env.replaced doc.blockRules w.state.engine = .ok engine) : w.Installs c k :=
  ⟨hrequest, url, text, doc, engine, (gives_policyUrl k.env _ c w.state rfl).1.trans hurl, hsource,
    htext, hreplaced⟩

/-- A refresh whose rules the engine does not take leaves all as it was but for the fetch, or leaves no
rules. -/
theorem enforcement_call_of_not_installs {c : Config} {w : World} {k : Call}
    (hrequest : k.request = .refresh) (hk : ¬ w.Installs c k) :
    (w.call c k).2.state.enforcement = w.state.enforcement ∨
      (∃ url, (w.call c k).2.state.enforcement = w.state.enforcement.fetching url) ∨
      ∃ url, (w.call c k).2.state.enforcement =
        (w.state.enforcement.fetching url).cleared k.env := by
  rw [call, hrequest]
  rcases (refreshed c w.state).enforcement_cases with h | h | h |
    ⟨url, text, doc, engine, hurl, hsource, htext, hreplaced, -⟩
  · exact .inl h
  · exact .inr (.inl h)
  · exact .inr (.inr h)
  · exact absurd (installs_of_replaced hrequest hurl hsource htext hreplaced) hk

/-- Whether one of the calls is a refresh whose rules the engine takes. -/
def InstallsOnce (w : World) : List Call → Prop
  | [] => False
  | k :: ks => w.Installs c k ∨ (w.call c k).2.InstallsOnce ks

/-- What holds before calls and is preserved by each of them holds after all of them. -/
theorem after_of_call {I : World → Prop} {P : Call → Prop}
    (hI : ∀ w k, P k → I w → I (w.call c k).2) {w : World} (hw : I w) {ks : List Call}
    (hks : ∀ k ∈ ks, P k) : I (w.after c ks) := by
  induction ks generalizing w with
  | nil => exact hw
  | cons k ks ih =>
    rw [List.forall_mem_cons] at hks
    exact ih (hI w k hks.1 hw) hks.2

end World

/-! ## What calls leave alone -/

namespace Action

/-- Whether an action leaves the store alone. -/
def KeepsStore : Action → Prop
  | write _ _ | erase _ => False
  | _ => True

/-- Whether an action leaves the engine and the shared matcher alone. -/
def KeepsRules : Action → Prop
  | update _ | serve _ => False
  | _ => True

/-- Whether an action is one of those that guard or change the policy URL and the lock. -/
def Edits : Action → Prop
  | read _ | note _ => True
  | write key _ | erase key => key = Cell.policyUrl.key ∨ key = Cell.accessLock.key
  | _ => False

variable {env : Surroundings} {s : State} {a : Action}

/-- The store is the same after an action that leaves it alone. -/
theorem KeepsStore.store_answer (h : a.KeepsStore) : (a.answer env s).2.store = s.store := by
  cases a with
  | write key text => exact h.elim
  | erase key => exact h.elim
  | read key => rw [OnlyLooks.answer_eq env s (a := .read key) trivial]
  | listRules => rw [OnlyLooks.answer_eq env s (a := .listRules) trivial]
  | update u =>
    rw [answer]
    split
    · rfl
    · split <;> rfl
  | redirect o => rw [answer]; split <;> rfl
  | _ => rfl

/-- The shared matcher is the same after an action that leaves it alone. -/
theorem KeepsRules.served_answer (h : a.KeepsRules) : (a.answer env s).2.served = s.served := by
  cases a with
  | update u => exact h.elim
  | serve m => exact h.elim
  | write key text => cases hfault : env.writeFault key <;> rw [answer, hfault] <;> rfl
  | erase key => cases hfault : env.writeFault key <;> rw [answer, hfault] <;> rfl
  | read key => rw [OnlyLooks.answer_eq env s (a := .read key) trivial]
  | listRules => rw [OnlyLooks.answer_eq env s (a := .listRules) trivial]
  | redirect o => rw [answer]; split <;> rfl
  | _ => rfl

/-- An action that concerns the policy URL and the lock leaves the rules in force alone. -/
theorem Edits.keepsRules (h : a.Edits) : a.KeepsRules := by
  cases a <;> first | exact trivial | exact h.elim

/-- The key of the policy URL or the lock is that of no other cell. -/
theorem Edits.key_ne {key : String} (h : key = Cell.policyUrl.key ∨ key = Cell.accessLock.key) :
    key ≠ Cell.redirectRules.key := by
  rcases h with rfl | rfl <;> decide

end Action

section Keeping

variable (c : Config)

/-- Presenting a password takes reads and a notice. -/
theorem all_unlock {P : Action → Prop} (hread : ∀ key, P (.read key))
    (hnote : ∀ n, P (.note n)) (session : Session) (password : String) :
    (unlock session password).All P := by
  refine .bind (reads_storedLock.mono fun _ => Action.Reads.of hread) fun lock => ?_
  cases lock with
  | error e => exact .pure _
  | ok lock =>
    dsimp only
    split
    · exact .bind (.perform (hnote _)) fun _ => .pure _
    · exact .pure _

theorem keepsStore_unlock (session : Session) (password : String) :
    (unlock session password).All Action.KeepsStore :=
  all_unlock (fun _ => trivial) (fun _ => trivial) session password

theorem keepsStore_navigate (n : Navigation) : (navigate c n).All Action.KeepsStore :=
  (navigates_navigate c n).mono fun a ha => by cases a <;> first | exact trivial | exact ha.elim

theorem edits_unlock (session : Session) (password : String) :
    (unlock session password).All Action.Edits :=
  all_unlock (fun _ => trivial) (fun _ => trivial) session password

theorem edits_ensureEditable (session : Session) :
    (ensureEditable c session).All Action.Edits :=
  (reads_ensureEditable c session).mono fun _ => Action.Reads.of fun _ => trivial

theorem edits_setPolicyUrl (session : Session) (url : String) :
    (setPolicyUrl c session url).All Action.Edits := by
  refine .bind (edits_ensureEditable c session) fun leave => ?_
  cases leave with
  | error e => exact .pure _
  | ok u =>
    refine .bind (.perform (.inl rfl)) fun written => ?_
    cases written with
    | error e => exact .pure _
    | ok u => exact .bind (.perform trivial) fun _ => .pure _

theorem edits_removePolicyUrl (session : Session) :
    (removePolicyUrl c session).All Action.Edits := by
  refine .bind (edits_ensureEditable c session) fun leave => ?_
  cases leave with
  | error e => exact .pure _
  | ok u =>
    refine .bind (.perform (.inl rfl)) fun erased => ?_
    cases erased with
    | error e => exact .pure _
    | ok u =>
      refine .bind (.perform (.inr rfl)) fun erased => ?_
      cases erased with
      | error e => exact .pure _
      | ok u => exact .bind (.perform trivial) fun _ => .pure _

end Keeping

namespace World

variable {c : Config} {w : World} {k : Call}

/-- What the actions on the policy URL and the lock preserve is preserved by every call but refreshes and
navigations. -/
theorem state_call_of_edits {I : State → Prop}
    (hI : ∀ (a : Action) s, a.Edits → I s → I (a.answer k.env s).2) (hrefresh : k.request ≠ .refresh)
    (hnavigate : ∀ n, k.request ≠ .navigate n) (hw : I w.state) : I (w.call c k).2.state := by
  have hedits {α : Type} {p : Program α} (hp : p.All Action.Edits) : I (p.run k.env w.state).2 :=
    hp.run k.env hI hw
  have hreads {α : Type} {p : Program α} (hp : p.All Action.Reads) : I (p.run k.env w.state).2 :=
    hedits (hp.mono fun _ => Action.Reads.of fun _ => trivial)
  rw [call]
  cases hrequest : k.request with
  | refresh => exact absurd hrequest hrefresh
  | navigate n => exact absurd hrequest (hnavigate n)
  | status => exact hreads (reads_status c)
  | verifyPassword password => exact hreads (reads_verifyPassword password)
  | unlock i password => exact hedits (edits_unlock _ password)
  | setPolicyUrl i url => exact hedits (edits_setPolicyUrl c _ url)
  | removePolicyUrl i => exact hedits (edits_removePolicyUrl c _)

end World

/-! ## The shared matcher over runs -/

/-- A navigation leaves the shared matcher as it is, where there is one. -/
theorem served_navigate {env : Surroundings} {s : State} {m : Matcher} (c : Config)
    (n : Navigation) (h : s.served = some m) : ((navigate c n).run env s).2.served = some m := by
  rcases enforcement_navigate_cases env c n s with hafter | ⟨m', urls, target, hmatcher, hafter⟩
  · exact (congrArg Enforcement.served hafter).trans h
  · obtain rfl : m = m' := Except.ok.inj ((matcher_of_served h).symm.trans hmatcher)
    rw [sending_eq] at hafter
    exact congrArg Enforcement.served hafter

namespace World

variable {c : Config} {w : World} {k : Call} {m : Matcher}

/-- Only a refresh replaces the shared matcher. -/
theorem served_call_of_ne_refresh (hk : k.request ≠ .refresh) (h : w.state.served = some m) :
    (w.call c k).2.state.served = some m := by
  by_cases hnavigate : ∃ n, k.request = .navigate n
  · obtain ⟨n, hrequest⟩ := hnavigate
    rw [call, hrequest]
    exact served_navigate c n h
  · exact state_call_of_edits (I := fun s => s.served = some m)
      (fun _ _ ha hs => ha.keepsRules.served_answer.trans hs) hk (not_exists.1 hnavigate) h

/-- The shared matcher stays through calls among which there is no refresh. -/
theorem served_after {ks : List Call} (hks : ∀ k ∈ ks, k.request ≠ .refresh)
    (h : w.state.served = some m) : (w.after c ks).state.served = some m :=
  after_of_call c (I := fun w => w.state.served = some m)
    (fun _ _ hk hw => served_call_of_ne_refresh hk hw) h hks

end World

end NavPolicy.Agent
