import NavPolicy.Proofs.Agent.Calls
import NavPolicy.Proofs.Policy.Meaning

/-!
# No policy is better than a stale one

A refresh that gets no policy drops all rules: the shared matcher, the rules of the engine and both
stored lists, each of them whatever becomes of the others (`RulesDropped`).  Navigations are let pass from
then on, until a refresh installs a policy again.
-/

namespace NavPolicy.Agent

/-- What a refresh without policy makes of a state in some surroundings. -/
structure RulesDropped (env : Surroundings) (s s' : State) : Prop where
  served : s'.served = some .empty
  engine : env.listFault = none → env.updateFault = none → s'.engine.rules = []
  engine_of_fault : env.listFault ≠ none ∨ env.updateFault ≠ none → s'.engine = s.engine
  /-- Whoever can read the block rules later reads that there are none. -/
  blockRules : env.writeFault Cell.blockRules.key = none → ∀ later : Surroundings,
    later.readFault Cell.blockRules.key = none → (storedBlockRules.run later s').1 = .ok []
  blockRules_of_fault : env.writeFault Cell.blockRules.key ≠ none →
    s'.store.get? Cell.blockRules.key = s.store.get? Cell.blockRules.key
  /-- Whoever can read the redirect rules later reads that there are none. -/
  redirectRules : env.writeFault Cell.redirectRules.key = none → ∀ later : Surroundings,
    later.readFault Cell.redirectRules.key = none → (storedRedirectRules.run later s').1 = .ok []
  redirectRules_of_fault : env.writeFault Cell.redirectRules.key ≠ none →
    s'.store.get? Cell.redirectRules.key = s.store.get? Cell.redirectRules.key
  policyUrl : s'.store.get? Cell.policyUrl.key = s.store.get? Cell.policyUrl.key
  accessLock : s'.store.get? Cell.accessLock.key = s.store.get? Cell.accessLock.key

/-- Whether every navigation has no target, whatever the surroundings, and takes neither an override nor
a question to a page. -/
def LetsPass (c : Config) (s : State) : Prop :=
  ∀ (env : Surroundings) (n : Navigation), ((navigate c n).run env s).1 = .ok none ∧
    ((navigate c n).run env s).2.sent = s.sent ∧ ((navigate c n).run env s).2.probed = s.probed

/-! ## States without rules -/

/-- A state that enforces what is left when all rules are dropped has had them dropped. -/
theorem rulesDropped_of_enforcement {env : Surroundings} {s s' : State} {url : String}
    (h : s'.enforcement = (s.enforcement.fetching url).cleared env) : RulesDropped env s s' := by
  have hengine : s'.engine = env.cleared s.engine :=
    (congrArg Enforcement.engine h).trans Enforcement.engine_cleared
  have hblocks := (get?_of_enforcement h _).trans Enforcement.texts_cleared_blockRules
  have hredirects := (get?_of_enforcement h _).trans Enforcement.texts_cleared_redirectRules
  constructor
  case served => exact (congrArg Enforcement.served h).trans Enforcement.served_cleared
  case engine =>
    intro hlist hupdate
    rw [hengine]
    exact env.rules_cleared_of_not_refuses (env.refuses_eq_false_iff.2 ⟨hlist, hupdate⟩) _
  case engine_of_fault =>
    intro hfault
    rw [hengine]
    exact env.cleared_of_refuses (env.refuses_eq_true_iff.2 hfault) _
  case blockRules =>
    intro hwrite later hread
    rw [if_pos hwrite] at hblocks
    exact run_storedBlockRules_of_text hread hblocks
  case blockRules_of_fault =>
    intro hwrite
    rw [if_neg hwrite] at hblocks
    exact hblocks.trans (texts_enforcement .blockRules s)
  case redirectRules =>
    intro hwrite later hread
    rw [if_pos hwrite] at hredirects
    exact run_storedRedirectRules_of_text hread hredirects
  case redirectRules_of_fault =>
    intro hwrite
    rw [if_neg hwrite] at hredirects
    exact hredirects.trans (texts_enforcement .redirectRules s)
  case policyUrl =>
    rw [get?_of_enforcement h, Enforcement.texts_cleared_of_ne (by nofun) (by nofun),
      Enforcement.texts_fetching, texts_enforcement]
  case accessLock =>
    rw [get?_of_enforcement h, Enforcement.texts_cleared_of_ne (by nofun) (by nofun),
      Enforcement.texts_fetching, texts_enforcement]

/-- An agent whose shared matcher is empty lets every navigation pass. -/
theorem letsPass_of_served_empty {c : Config} {s : State} (h : s.served = some .empty) :
    LetsPass c s := by
  intro env n
  cases hn : n.target? with
  | none =>
    obtain ⟨hanswer, hafter⟩ := gives_navigate_of_target?_eq_none env c hn s rfl
    exact ⟨hanswer, congrArg Enforcement.sent hafter, congrArg Enforcement.probed hafter⟩
  | some url =>
    have hmatcher : s.enforcement.matcher env = .ok .empty := matcher_of_served h
    obtain ⟨hanswer, hafter⟩ := gives_navigate_of_matcher c hn hmatcher s rfl
    refine ⟨hanswer, congrArg Enforcement.sent hafter, ?_⟩
    refine (congrArg Enforcement.probed hafter).trans ?_
    exact List.append_nil _

/-! ## Runs without a policy -/

/-- While no refresh installs a policy, an empty shared matcher stays. -/
theorem served_empty_call {c : Config} {w : World} {k : Call} (hk : ¬ w.Installs c k)
    (h : w.state.served = some .empty) : (w.call c k).2.state.served = some .empty := by
  by_cases hrequest : k.request = .refresh
  · show (w.call c k).2.state.enforcement.served = some .empty
    rcases World.enforcement_call_of_not_installs hrequest hk with hsame | ⟨url, hfetched⟩ |
      ⟨url, hcleared⟩
    · rw [hsame]
      exact h
    · rw [hfetched]
      exact h
    · rw [hcleared]
      exact Enforcement.served_cleared
  · exact World.served_call_of_ne_refresh hrequest h

/-- While no refresh installs a policy, an empty shared matcher stays over any run. -/
theorem served_empty_after {c : Config} {w : World} {ks : List Call} (hks : ¬ w.InstallsOnce c ks)
    (h : w.state.served = some .empty) : (w.after c ks).state.served = some .empty := by
  induction ks generalizing w with
  | nil => exact h
  | cons k ks ih =>
    rw [World.InstallsOnce, not_or] at hks
    exact ih hks.2 (served_empty_call hks.1 h)

/-- A refresh that gets no policy says why and comes to what is left when all rules are dropped. -/
theorem gives_refresh_without_policy {c : Config} {env : Surroundings} {x : Enforcement}
    {url : String} (hurl : x.policyUrl env c = .ok (some url))
    (hfetch : ∀ text root, env.source x.fetched.length url = .ok text →
      Yaml.Value.ofText text ≠ .ok (.mapping root)) :
    ∃ a, (refresh c).Gives env x a ((x.fetching url).cleared env) ∧
      (∀ e, env.source x.fetched.length url = .error e → a = .error (.sourceUnavailable e)) ∧
      ∀ text, env.source x.fetched.length url = .ok text →
        ∃ e, PolicyDocument.ofText text = .error e ∧ a = .error (.malformedDocument e) := by
  cases hsource : env.source x.fetched.length url with
  | error e =>
    refine ⟨_, gives_refresh_of_url hurl (gives_refreshFrom_of_unavailable hsource), ?_, ?_⟩
    · intro e' he
      obtain rfl := Except.error.inj he
      rfl
    · intro text htext
      exact absurd htext (by simp)
  | ok text =>
    obtain ⟨e, he⟩ := PolicyDocument.exists_error_of_no_mapping fun root => hfetch text root hsource
    refine ⟨_, gives_refresh_of_url hurl (gives_refreshFrom_of_malformed hsource he), ?_, ?_⟩
    · intro e' he'
      exact absurd he' (by simp)
    · intro text' htext
      obtain rfl := Except.ok.inj htext
      exact ⟨e, he, rfl⟩

/-- A refresh that gets no policy says why, drops all rules whatever else fails, and leaves the agent
letting navigations pass until a refresh installs a policy. -/
theorem refresh_without_policy (c : Config) (env : Surroundings) (s : State) {url : String}
    (hurl : ((policyUrl c).run env s).1 = .ok (some url))
    (hfetch : ∀ text root, env.source s.fetched.length url = .ok text →
      Yaml.Value.ofText text ≠ .ok (.mapping root)) :
    (∀ e, env.source s.fetched.length url = .error e →
        ((refresh c).run env s).1 = .error (.sourceUnavailable e)) ∧
      (∀ text, env.source s.fetched.length url = .ok text →
        ∃ e, PolicyDocument.ofText text = .error e ∧
          ((refresh c).run env s).1 = .error (.malformedDocument e)) ∧
      RulesDropped env s ((refresh c).run env s).2 ∧
      ∀ session ks, ¬ (World.mk ((refresh c).run env s).2 session).InstallsOnce c ks →
        LetsPass c ((World.mk ((refresh c).run env s).2 session).after c ks).state := by
  replace hurl : s.enforcement.policyUrl env c = .ok (some url) :=
    (gives_policyUrl env _ c s rfl).1.symm.trans hurl
  obtain ⟨a, hgives, hunavailable, hmalformed⟩ := gives_refresh_without_policy hurl hfetch
  obtain ⟨rfl, hafter⟩ := hgives s rfl
  have hdropped := rulesDropped_of_enforcement hafter
  refine ⟨hunavailable, hmalformed, hdropped, fun session ks hks => ?_⟩
  exact letsPass_of_served_empty (served_empty_after hks hdropped.served)

/-- Out of reach of the net, an agent that holds a rule drops it and tells that it got no policy. -/
theorem refresh_without_policy_offline :
    let c : Config := { Config.default with managedPolicyUrl := some "https://policy.example" }
    let env := Surroundings.offline "no route" ⟨0, 0⟩
    let s := State.initial .empty (.holding [⟨1, "*ads*"⟩])
    ((refresh c).run env s).1 = .error (.sourceUnavailable (.transport "no route")) ∧
      RulesDropped env s ((refresh c).run env s).2 := by
  intro c env s
  have hurl : ((policyUrl c).run env s).1 = .ok (some "https://policy.example") := rfl
  have h := refresh_without_policy c env s hurl
    fun text root htext => absurd htext (by simp [env, Surroundings.offline])
  exact ⟨h.1 _ rfl, h.2.2.1⟩

end NavPolicy.Agent
