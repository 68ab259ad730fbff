import NavPolicy.Proofs.Agent.Install
import NavPolicy.Proofs.Agent.Sharing

/-!
# Restarts

An agent that is started anew on its store has no shared matcher, and loads one at the next navigation.
That is the matcher it had before: after every call the shared matcher, if there is one, is the one of the
redirect rules that are stored then, as long as these can be written (`State.ServesStored`).

Nothing but a navigation looks at the shared matcher, and a navigation changes nothing that other calls
look at (`State.lasting`).  So a run with restarts goes like the same run without them, but for whether
the matcher is there or is still to be loaded (`World.KeepsUp`), which no navigation shows.
-/

namespace NavPolicy.Agent

open Program (perform run_bind_of_eq)

/-! ## Serving what is stored -/

/-- Whether no matcher is shared, or the one of the stored redirect rules. -/
def State.ServesStored (s : State) : Prop := ∀ m, s.served = some m → s.Stores m

namespace Enforcement

/-- The matcher of the stored redirect rules, if their text can be understood. -/
def storedMatcher (x : Enforcement) : Except StoreError Matcher :=
  (Cell.redirectRules.decode (x.texts Cell.redirectRules.key)).map fun rules =>
    .ofRules (rules.getD [])

/-- Whether no matcher is shared, or the one of the stored redirect rules. -/
def ServesStored (x : Enforcement) : Prop := ∀ m, x.served = some m → x.storedMatcher = .ok m

variable {env : Surroundings} {x y : Enforcement}

/-- A text that is the one of redirect rules has their matcher stored. -/
theorem storedMatcher_of_text {rules : List RedirectRule}
    (h : x.texts Cell.redirectRules.key = some (Cell.redirectRules.encode rules)) :
    x.storedMatcher = .ok (.ofRules rules) := by
  rw [storedMatcher, h, Cell.redirectRules.decode_encode]
  rfl

namespace ServesStored

/-- Whether the stored rules are served depends on the shared matcher and the stored rules alone. -/
theorem congr (h : x.ServesStored) (hserved : y.served = x.served)
    (htexts : y.texts Cell.redirectRules.key = x.texts Cell.redirectRules.key) : y.ServesStored := by
  intro m hm
  rw [storedMatcher, htexts]
  exact h m (hserved ▸ hm)

/-- Where the store can be read, navigations get the matcher of the stored rules. -/
theorem matcher_eq (h : x.ServesStored) (hread : env.readFault Cell.redirectRules.key = none) :
    x.matcher env = x.storedMatcher := by
  cases hserved : x.served with
  | some m => rw [matcher_of_served hserved, h m hserved]
  | none =>
    rw [matcher, hserved, read, hread]
    rfl

/-- The matcher that a navigation gets and shares is the one of the stored rules. -/
theorem sharing (h : x.ServesStored) {m : Matcher} (hm : x.matcher env = .ok m) :
    ServesStored { x with served := some m } := by
  intro m' hm'
  obtain rfl := Option.some.inj hm'
  show x.storedMatcher = .ok m
  cases hread : env.readFault Cell.redirectRules.key with
  | none => exact (h.matcher_eq hread).symm.trans hm
  | some e =>
    -- a matcher that was not loaded is the one that was shared
    refine h m ?_
    rw [matcher, read, hread] at hm
    cases hserved : x.served with
    | some m' =>
      rw [hserved] at hm
      exact congrArg some (Except.ok.inj hm)
    | none =>
      rw [hserved] at hm
      exact absurd hm (by simp [Except.map])

end ServesStored

/-- Once all rules are dropped none are served and none are stored. -/
theorem servesStored_cleared (hwrite : env.writeFault Cell.redirectRules.key = none) :
    (x.cleared env).ServesStored := by
  intro m hm
  obtain rfl : Matcher.empty = m := Option.some.inj (served_cleared.symm.trans hm)
  exact storedMatcher_of_text (texts_cleared_redirectRules.trans (if_pos hwrite))

/-- After an install the rules of the policy are served and stored. -/
theorem servesStored_installed {p : CompiledPolicy} {engine : Engine}
    (hwrite : env.writeFault Cell.redirectRules.key = none) :
    (x.installed env p engine).ServesStored := by
  intro m hm
  obtain rfl := Option.some.inj (served_installed.symm.trans hm)
  exact storedMatcher_of_text (texts_installed_redirectRules.trans (if_pos hwrite))

end Enforcement

/-- A refresh that can write the redirect rules leaves those served that are stored. -/
theorem Refreshed.servesStored {env : Surroundings} {x y : Enforcement} {c : Config}
    {a : Except Error RefreshOutcome} (h : Refreshed env x c a y) (hx : x.ServesStored)
    (hwrite : env.writeFault Cell.redirectRules.key = none) : y.ServesStored := by
  rcases h.enforcement_cases with rfl | ⟨url, rfl⟩ | ⟨url, rfl⟩ |
    ⟨url, text, doc, engine, -, -, -, -, rfl⟩
  · exact hx
  · exact hx.congr rfl rfl
  · exact Enforcement.servesStored_cleared hwrite
  · exact Enforcement.servesStored_installed hwrite

section States

variable {env : Surroundings} {s : State} {m : Matcher}

/-- A matcher is the one of the stored rules if what is enforced says so. -/
theorem stores_iff : s.Stores m ↔ s.enforcement.storedMatcher = .ok m := by
  rw [State.Stores, Enforcement.storedMatcher, texts_enforcement]
  cases Cell.redirectRules.decode (s.store.get? Cell.redirectRules.key) with
  | error e => simp [Except.map]
  | ok rules => simp [Except.map, eq_comm]

/-- Whether the stored rules are served is a matter of what is enforced. -/
theorem servesStored_iff : s.ServesStored ↔ s.enforcement.ServesStored :=
  forall₂_congr fun _ _ => stores_iff

/-- A navigation leaves those rules served that are stored. -/
theorem servesStored_navigate (c : Config) (hs : s.enforcement.ServesStored) (n : Navigation) :
    ((navigate c n).run env s).2.enforcement.ServesStored := by
  rcases enforcement_navigate_cases env c n s with hafter | ⟨m, urls, target, hmatcher, hafter⟩
  · rw [hafter]
    exact hs
  · rw [hafter, sending_eq]
    exact (hs.sharing hmatcher).congr rfl rfl

/-- An action on the policy URL and the lock leaves those rules served that are stored. -/
theorem Action.Edits.servesStored {a : Action} (h : a.Edits) (hs : s.enforcement.ServesStored) :
    (a.answer env s).2.enforcement.ServesStored := by
  have hspares : a.SparesRedirects := by
    cases a with
    | write key text => exact key_ne h
    | erase key => exact key_ne h
    | _ => trivial
  refine hs.congr h.keepsRules.served_answer ?_
  rw [texts_enforcement, texts_enforcement]
  exact get?_answer_of_sparesRedirects hspares

end States

namespace World

variable {c : Config} {w v : World} {k : Call}

/-- A call that can write the redirect rules leaves those served that are stored. -/
theorem servesStored_call (hwrite : k.env.writeFault Cell.redirectRules.key = none)
    (hw : w.state.enforcement.ServesStored) :
    (w.call c k).2.state.enforcement.ServesStored := by
  by_cases hrefresh : k.request = .refresh
  · rw [call, hrefresh]
    exact (refreshed c w.state).servesStored hw hwrite
  · by_cases hnavigate : ∃ n, k.request = .navigate n
    · obtain ⟨n, hrequest⟩ := hnavigate
      rw [call, hrequest]
      exact servesStored_navigate c hw n
    · exact state_call_of_edits (I := fun s => s.enforcement.ServesStored)
        (fun _ _ ha => ha.servesStored) hrefresh (not_exists.1 hnavigate) hw

end World

/-! ## What only navigations look at -/

/-- A state without the shared matcher, the notices, and what navigations have done. -/
def State.lasting (s : State) : State :=
  { s with served := none, sent := [], probed := [], notices := [] }

/-- Whether an action looks neither at the shared matcher nor at a page. -/
def Action.Oblivious : Action → Prop
  | served | probe _ _ => False
  | _ => True

section Oblivious

variable (env : Surroundings) {s t : State}

/-- An action that looks neither at the shared matcher nor at a page does the same whatever they are. -/
theorem Action.Oblivious.answer_eq {a : Action} (h : a.Oblivious) (hst : s.lasting = t.lasting) :
    (a.answer env s).1 = (a.answer env t).1 ∧
      (a.answer env s).2.lasting = (a.answer env t).2.lasting := by
  obtain ⟨store, engine, served, sent, probed, fetched, notices, ticks, writes⟩ := s
  obtain ⟨rfl, rfl, rfl, rfl, rfl⟩ : store = t.store ∧ engine = t.engine ∧ fetched = t.fetched ∧
      ticks = t.ticks ∧ writes = t.writes := by simpa [State.lasting] using hst
  cases a with
  | read key => cases hfault : env.readFault key <;> simp [Action.answer, hfault, State.lasting]
  | write key text =>
    cases hfault : env.writeFault key <;> simp [Action.answer, hfault, State.attempt, State.lasting]
  | erase key =>
    cases hfault : env.writeFault key <;> simp [Action.answer, hfault, State.attempt, State.lasting]
  | listRules => cases hfault : env.listFault <;> simp [Action.answer, hfault, State.lasting]
  | update u =>
    cases hfault : env.updateFault with
    | some reason => simp [Action.answer, hfault, State.lasting]
    | none => cases happly : t.engine.apply u <;> simp [Action.answer, hfault, happly, State.lasting]
  | redirect o => cases hlisten : env.listening <;> simp [Action.answer, hlisten, State.lasting]
  | served => exact h.elim
  | probe url milliseconds => exact h.elim
  | _ => exact ⟨rfl, rfl⟩

/-- A program that looks neither at the shared matcher nor at a page does the same whatever they are. -/
theorem Program.All.run_lasting {α : Type} {p : Program α} (hp : p.All Action.Oblivious)
    (hst : s.lasting = t.lasting) :
    (p.run env s).1 = (p.run env t).1 ∧ (p.run env s).2.lasting = (p.run env t).2.lasting := by
  induction p generalizing s t with
  | done x => exact ⟨rfl, hst⟩
  | ask a next ih =>
    obtain ⟨hanswer, hafter⟩ := hp.1.answer_eq env hst
    have hnext := ih _ (hp.2 (a.answer env s).1) hafter
    rw [hanswer] at hnext
    simp only [Program.run, hanswer]
    exact hnext

theorem oblivious_refresh (c : Config) : (refresh c).All Action.Oblivious := by
  refine (follows_refresh c).all fun st a answer st' hstep => ?_
  cases hstep with
  | before _ haside => cases a <;> first | exact trivial | exact haside.elim
  | after _ haside => cases a <;> first | exact trivial | exact haside.elim
  | _ => trivial

/-- A navigation changes nothing that other calls look at. -/
theorem lasting_navigate (c : Config) (n : Navigation) :
    ((navigate c n).run env s).2.lasting = s.lasting := by
  refine (navigates_navigate c n).run_eq env (fun a s ha => ?_) s
  cases a with
  | read key => rw [Action.OnlyLooks.answer_eq env s (a := .read key) trivial]
  | redirect o => rw [Action.answer]; split <;> rfl
  | _ => first | rfl | exact ha.elim

end Oblivious

/-! ## Restarts -/

namespace World

/-- A world whose agent was started anew on the same store.  Whatever it works with goes on, and so do
the sessions, which belong to the callers. -/
def restarted (w : World) : World := { w with state := { w.state with served := none } }

/-- The world after calls in several lives of an agent, each of which begins with a restart. -/
def afterLives (c : Config) (w : World) (lives : List (List Call)) : World :=
  lives.foldl (fun w ks => w.restarted.after c ks) w

/-- Whether two worlds are alike to all but navigations, and each serves the rules that it stores. -/
structure KeepsUp (w v : World) : Prop where
  lasting : w.state.lasting = v.state.lasting
  session : w.session = v.session
  served : w.state.enforcement.ServesStored
  served' : v.state.enforcement.ServesStored

namespace KeepsUp

variable {c : Config} {w v : World} {k : Call}

/-- An agent that was started anew keeps up. -/
theorem restarted (h : w.KeepsUp v) : w.restarted.KeepsUp v where
  lasting := h.lasting
  session := h.session
  served m hm := absurd hm (by simp [World.restarted, State.enforcement])
  served' := h.served'

/-- A call keeps worlds alike. -/
theorem call (h : w.KeepsUp v) (hwrite : k.env.writeFault Cell.redirectRules.key = none) :
    (w.call c k).2.KeepsUp (v.call c k).2 := by
  have hserved := servesStored_call (c := c) hwrite h.served
  have hserved' := servesStored_call (c := c) hwrite h.served'
  suffices hsame : (w.call c k).2.state.lasting = (v.call c k).2.state.lasting ∧
      (w.call c k).2.session = (v.call c k).2.session from
    ⟨hsame.1, hsame.2, hserved, hserved'⟩
  have hoblivious {α : Type} {p : Program α} (hp : p.All Action.Oblivious) :=
    hp.run_lasting k.env h.lasting
  have hreads {α : Type} {p : Program α} (hp : p.All Action.Reads) :=
    hoblivious (hp.mono fun _ => Action.Reads.of fun _ => trivial)
  have hedits {α : Type} {p : Program α} (hp : p.All Action.Edits) :=
    hoblivious (hp.mono fun a ha => by cases a <;> first | exact trivial | exact ha.elim)
  have hsession := h.session
  rw [World.call, World.call]
  cases k.request with
  | refresh => exact ⟨(hoblivious (oblivious_refresh c)).2, hsession⟩
  | navigate n =>
    exact ⟨(lasting_navigate _ c n).trans (h.lasting.trans (lasting_navigate _ c n).symm), hsession⟩
  | status => exact ⟨(hreads (reads_status c)).2, hsession⟩
  | verifyPassword password => exact ⟨(hreads (reads_verifyPassword password)).2, hsession⟩
  | unlock i password =>
    obtain ⟨hanswer, hafter⟩ := hedits (edits_unlock (w.session i) password)
    dsimp only
    rw [← hsession]
    exact ⟨hafter, congrArg (fun answer => Function.update w.session i answer.2) hanswer⟩
  | setPolicyUrl i url =>
    dsimp only
    rw [← hsession]
    exact ⟨(hedits (edits_setPolicyUrl c (w.session i) url)).2, rfl⟩
  | removePolicyUrl i =>
    dsimp only
    rw [← hsession]
    exact ⟨(hedits (edits_removePolicyUrl c (w.session i))).2, rfl⟩

/-- Calls keep worlds alike. -/
theorem after (h : w.KeepsUp v) {ks : List Call}
    (hwrite : ∀ k ∈ ks, k.env.writeFault Cell.redirectRules.key = none) :
    (w.after c ks).KeepsUp (v.after c ks) := by
  induction ks generalizing w v with
  | nil => exact h
  | cons k ks ih =>
    rw [List.forall_mem_cons] at hwrite
    exact ih (h.call hwrite.1) hwrite.2

/-- A run with restarts and the one without them keep worlds alike. -/
theorem afterLives (h : w.KeepsUp v) {lives : List (List Call)}
    (hwrite : ∀ k ∈ lives.flatten, k.env.writeFault Cell.redirectRules.key = none) :
    (w.afterLives c lives).KeepsUp (v.after c lives.flatten) := by
  induction lives generalizing w v with
  | nil => exact h
  | cons ks lives ih =>
    rw [List.flatten_cons, List.forall_mem_append] at hwrite
    rw [List.flatten_cons, World.after, List.foldl_append]
    exact ih (h.restarted.after hwrite.1) hwrite.2

end KeepsUp

end World

/-! ## Navigations after restarts -/

/-- The answer to a navigation and what is sent for it, when so many pages were asked before and this
came of getting a matcher. -/
def Surroundings.navigated (env : Surroundings) (n : Navigation) (count : Nat)
    (r : Except StoreError Matcher) : Except Error (Option String) × List Override :=
  match n.target? with
  | none => (.ok none, [])
  | some url =>
    match r with
    | .error e => (.error (.store e), [])
    | .ok m =>
      let target := (Candidate.firstUsable env.answers count (candidatesOf (m.matching url))).target
      (env.delivered target, if env.listening then (target.map (Override.mk n.tab)).toList else [])

section Navigations

variable {env : Surroundings} {s t : State} {c : Config} {n : Navigation}

/-- A navigation is answered by what comes of getting a matcher. -/
theorem run_navigate {r : Except StoreError Matcher} (hr : s.enforcement.matcher env = r) :
    ((navigate c n).run env s).1 = (env.navigated n s.probed.length r).1 ∧
      ((navigate c n).run env s).2.sent = s.sent ++ (env.navigated n s.probed.length r).2 := by
  rw [Surroundings.navigated]
  cases hn : n.target? with
  | none =>
    obtain ⟨hanswer, hafter⟩ := gives_navigate_of_target?_eq_none env c hn s rfl
    exact ⟨hanswer, (congrArg Enforcement.sent hafter).trans (List.append_nil _).symm⟩
  | some url =>
    cases r with
    | error e =>
      obtain ⟨hanswer, hafter⟩ := gives_navigate_of_matcher_error c hn hr s rfl
      exact ⟨hanswer, (congrArg Enforcement.sent hafter).trans (List.append_nil _).symm⟩
    | ok m =>
      obtain ⟨hanswer, hafter⟩ := gives_navigate_of_matcher c hn hr s rfl
      rw [sending_eq] at hafter
      exact ⟨hanswer, congrArg Enforcement.sent hafter⟩

/-- What comes of a matcher depends on the pages from now on alone. -/
theorem navigated_congr {page : Nat → String → Option (Except ProbeError Unit)} {count count' : Nat}
    (hpage : ∀ i url, page (count + i) url = env.page (count' + i) url)
    (r : Except StoreError Matcher) :
    Surroundings.navigated { env with page } n count r = env.navigated n count' r := by
  have hanswers (i : Nat) (url : String) :
      Surroundings.answers { env with page } (count + i) url = env.answers (count' + i) url := by
    show decide (page (count + i) url = some (.ok ())) = _
    rw [hpage]
    rfl
  rw [Surroundings.navigated, Surroundings.navigated]
  cases n.target? with
  | none => rfl
  | some url =>
    cases r with
    | error e => rfl
    | ok m =>
      dsimp only
      rw [Candidate.firstUsable_congr hanswers]
      rfl

/-- Where the stored rules are served and can be read, a navigation depends on them and on the pages. -/
theorem navigate_congr (hs : s.enforcement.ServesStored) (ht : t.enforcement.ServesStored)
    (hlasting : s.lasting = t.lasting) (hread : env.readFault Cell.redirectRules.key = none)
    {page : Nat → String → Option (Except ProbeError Unit)}
    (hpage : ∀ i url, page (s.probed.length + i) url = env.page (t.probed.length + i) url) :
    ((navigate c n).run { env with page } s).1 = ((navigate c n).run env t).1 ∧
      ∃ overrides, ((navigate c n).run { env with page } s).2.sent = s.sent ++ overrides ∧
        ((navigate c n).run env t).2.sent = t.sent ++ overrides := by
  have hstore : s.store = t.store := (State.mk.inj hlasting).1
  have hstored : s.enforcement.storedMatcher = t.enforcement.storedMatcher := by
    rw [Enforcement.storedMatcher, Enforcement.storedMatcher, texts_enforcement, texts_enforcement,
      hstore]
  have hmatcher : s.enforcement.matcher { env with page } = t.enforcement.storedMatcher :=
    (hs.matcher_eq hread).trans hstored
  obtain ⟨hanswer, hsent⟩ := run_navigate (c := c) (n := n) hmatcher
  obtain ⟨hanswer', hsent'⟩ := run_navigate (c := c) (n := n) (ht.matcher_eq hread)
  rw [navigated_congr hpage] at hanswer hsent
  exact ⟨hanswer.trans hanswer'.symm, _, hsent, hsent'⟩

/-- A navigation that cannot load a matcher does nothing but tell so. -/
theorem navigate_of_load_error {url : String} {e : StoreError} (hn : n.target? = some url)
    (hserved : s.served = none) (hload : (storedRedirectRules.run env s).1 = .error e) :
    (navigate c n).run env s = (.error (.store e), s) := by
  have hload' : storedRedirectRules.run env s = (.error e, s) :=
    Prod.ext hload (reads_storedRedirectRules.run_of_reads env s)
  have hlook : (perform .served).run env s = (none, s) := congrArg (·, s) hserved
  have hloaded : loadMatcher.run env s = (.error e, s) := by
    refine run_bind_of_eq env rfl (run_bind_of_eq env hlook ?_)
    exact run_bind_of_eq env hload' rfl
  have hshared : sharedMatcher.run env s = (.error e, s) :=
    run_bind_of_eq env rfl (run_bind_of_eq env hlook (run_bind_of_eq env rfl hloaded))
  rw [navigate, hn]
  exact run_bind_of_eq env hshared rfl

end Navigations

/-- Over every run of calls on an agent with any store, whatever fails but the writing of redirect rules,
and however often the agent is started anew in between: the shared matcher, if there is one, is the one of
the stored redirect rules, with restarts and without; where these can be read and the pages answer alike,
a navigation is answered in the same way after the run with restarts and after the one without, and
sends the same; and a navigation for which no matcher can be loaded tells the failure and changes
nothing. -/
theorem restarts_invisible (c : Config) (store : Store) (engine : Engine)
    (lives : List (List Call))
    (hwrite : ∀ k ∈ lives.flatten, k.env.writeFault Cell.redirectRules.key = none) :
    let start := World.fresh (.initial store engine)
    let s := (start.afterLives c lives).state
    let t := (start.after c lives.flatten).state
    (s.ServesStored ∧ t.ServesStored) ∧
    (∀ (n : Navigation) (env : Surroundings) (page : Nat → String → Option (Except ProbeError Unit)),
      env.readFault Cell.redirectRules.key = none →
      (∀ i url, page (s.probed.length + i) url = env.page (t.probed.length + i) url) →
      ((navigate c n).run { env with page } s).1 = ((navigate c n).run env t).1 ∧
        ∃ overrides, ((navigate c n).run { env with page } s).2.sent = s.sent ++ overrides ∧
          ((navigate c n).run env t).2.sent = t.sent ++ overrides) ∧
    ∀ (n : Navigation) (env : Surroundings) (url : String) (e : StoreError),
      n.target? = some url → s.served = none → (storedRedirectRules.run env s).1 = .error e →
      (navigate c n).run env s = (.error (.store e), s) := by
  intro start s t
  have hstored : start.state.enforcement.ServesStored := fun m hm => nomatch hm
  have hstart : start.KeepsUp start := ⟨rfl, rfl, hstored, hstored⟩
  have h : (start.afterLives c lives).KeepsUp (start.after c lives.flatten) :=
    hstart.afterLives hwrite
  refine ⟨⟨servesStored_iff.2 h.served, servesStored_iff.2 h.served'⟩, ?_, ?_⟩
  · exact fun n env page hread hpage => navigate_congr h.served h.served' h.lasting hread hpage
  · exact fun n env url e hn hserved hload => navigate_of_load_error hn hserved hload

/-- An agent that has installed a policy and was started anew has no matcher.  It redirects like the one
that was not; as long as the store is busy it says so and stays as it is. -/
theorem restarts_invisible_after_install :
    let c : Config := { Config.default with managedPolicyUrl := some "https://policy.example" }
    let env : Surroundings :=
      { Surroundings.offline "no route" ⟨0, 0⟩ with
        source := fun _ _ => .ok "urls: [\x7burl: 'a*', html: new\x7d]" }
    let refreshing : Call := ⟨env, .refresh⟩
    let start := World.fresh (.initial .empty .empty)
    let s := (start.afterLives c [[refreshing], []]).state
    let t := (start.after c [refreshing]).state
    let going := navigate c (.loading 1 "abc")
    s.served = none ∧ t.served ≠ none ∧
      (going.run env t).1 = .ok (some "data:text/html;charset=utf-8,new") ∧
      (going.run env s).1 = (going.run env t).1 ∧
      going.run { env with readFault := fun _ => some .busy } s = (.error (.store (.io .busy)), s) := by
  intro c env refreshing start s t going
  obtain ⟨-, hsame, hfailed⟩ := restarts_invisible c .empty .empty [[refreshing], []]
    (fun k hk => by obtain rfl := List.mem_singleton.1 hk; rfl)
  refine ⟨rfl, by decide +kernel, by decide +kernel, ?_, ?_⟩
  · exact (hsame (.loading 1 "abc") env env.page rfl fun _ _ => rfl).1
  · exact hfailed (.loading 1 "abc") _ "abc" _ rfl rfl rfl

end NavPolicy.Agent
