import NavPolicy.Proofs.Agent.Refreshing
import NavPolicy.Proofs.Policy.Numbering

/-!
# What an installed policy leaves in force

A refresh whose text is a policy puts that policy in force, whatever was in force before: the engine
holds its block rules, navigations are matched against its redirect rules, and the store gives back its
rules and its lock (`InForce`).  The numbers of compiled block rules are distinct, so an engine that does
as it is asked always takes them.
-/

namespace NavPolicy.Agent

/-- Whether a compiled policy, and no other, is in force in a state. -/
structure InForce (p : CompiledPolicy) (s : State) : Prop where
  engine : s.engine = .holding p.blockRules
  served : s.served = some (.ofRules p.redirectRules)
  blockRules : Cell.blockRules.decode (s.store.get? Cell.blockRules.key) = .ok (some p.blockRules)
  redirectRules :
    Cell.redirectRules.decode (s.store.get? Cell.redirectRules.key) = .ok (some p.redirectRules)
  accessLock : Cell.accessLock.decode (s.store.get? Cell.accessLock.key) = .ok (some p.lock)

namespace Enforcement

variable {env : Surroundings} {x : Enforcement} {p : CompiledPolicy} {engine : Engine}

/-- An install leaves the engine that has taken the rules. -/
theorem engine_installed : (x.installed env p engine).engine = engine := by
  rw [installed, engine_write, engine_write, engine_write]

/-- Navigations are matched against the rules that were installed. -/
theorem served_installed :
    (x.installed env p engine).served = some (.ofRules p.redirectRules) := by
  rw [installed, served_write, served_write, served_write]

/-- An install concerns the cells of rules and lock and no others. -/
theorem texts_installed_of_ne {cell : Cell} (hblocks : cell ≠ .blockRules)
    (hredirects : cell ≠ .redirectRules) (hlock : cell ≠ .accessLock) :
    (x.installed env p engine).texts cell.key = x.texts cell.key := by
  rw [installed, texts_write_of_ne hlock, texts_write_of_ne hredirects, texts_write_of_ne hblocks]

/-- After an install the block rules are under their key, or what stood there if that failed. -/
theorem texts_installed_blockRules : (x.installed env p engine).texts Cell.blockRules.key =
    if env.writeFault Cell.blockRules.key = none then some (Cell.blockRules.encode p.blockRules)
    else x.texts Cell.blockRules.key := by
  rw [installed, texts_write_of_ne (by nofun), texts_write_of_ne (by nofun), texts_write]

/-- After an install the redirect rules are under their key, or what stood there if that failed. -/
theorem texts_installed_redirectRules : (x.installed env p engine).texts Cell.redirectRules.key =
    if env.writeFault Cell.redirectRules.key = none then
      some (Cell.redirectRules.encode p.redirectRules)
    else x.texts Cell.redirectRules.key := by
  rw [installed, texts_write_of_ne (by nofun), texts_write, texts_write_of_ne (by nofun)]

/-- After an install the lock is under its key, or what stood there if that failed. -/
theorem texts_installed_accessLock : (x.installed env p engine).texts Cell.accessLock.key =
    if env.writeFault Cell.accessLock.key = none then some (Cell.accessLock.encode p.lock)
    else x.texts Cell.accessLock.key := by
  rw [installed, texts_write, texts_write_of_ne (by nofun), texts_write_of_ne (by nofun)]

end Enforcement

variable {c : Config} {env : Surroundings}

/-- A state that enforces an install without failures has the policy in force. -/
theorem inForce_of_enforcement {s : State} {x : Enforcement} {p : CompiledPolicy}
    (h : s.enforcement = x.installed env p (.holding p.blockRules))
    (hwrite : ∀ cell ∈ [Cell.blockRules, .redirectRules, .accessLock],
      env.writeFault cell.key = none) : InForce p s where
  engine := (congrArg Enforcement.engine h).trans Enforcement.engine_installed
  served := (congrArg Enforcement.served h).trans Enforcement.served_installed
  blockRules := by
    rw [get?_of_enforcement h, Enforcement.texts_installed_blockRules, if_pos (hwrite _ (by decide))]
    exact Cell.blockRules.decode_encode p.blockRules
  redirectRules := by
    rw [get?_of_enforcement h, Enforcement.texts_installed_redirectRules, if_pos (hwrite _ (by decide))]
    exact Cell.redirectRules.decode_encode p.redirectRules
  accessLock := by
    rw [get?_of_enforcement h, Enforcement.texts_installed_accessLock, if_pos (hwrite _ (by decide))]
    exact Cell.accessLock.decode_encode p.lock

/-- Without failures to store an install is told as done. -/
theorem installOutcome_of_no_fault
    (hwrite : ∀ cell ∈ [Cell.blockRules, .redirectRules, .accessLock],
      env.writeFault cell.key = none) : env.installOutcome = .ok () := by
  rw [Surroundings.installOutcome, Surroundings.storeFault, hwrite .blockRules (by decide),
    hwrite .redirectRules (by decide), hwrite .accessLock (by decide)]
  rfl

/-- A refresh whose text is a policy of fewer than 2^32 entries applies it where nothing fails. -/
theorem gives_refresh_of_document {x : Enforcement} {url text : String} {doc : PolicyDocument}
    (hurl : x.policyUrl env c = .ok (some url)) (hsource : env.source x.fetched.length url = .ok text)
    (hdoc : PolicyDocument.ofText text = .ok doc) (hentries : doc.entries.length < 2 ^ 32)
    (hlist : env.listFault = none) (hupdate : env.updateFault = none)
    (hwrite : ∀ cell ∈ [Cell.blockRules, .redirectRules, .accessLock],
      env.writeFault cell.key = none) :
    (refresh c).Gives env x (.ok (.applied doc.stats))
      ((x.fetching url).installed env doc.compile (.holding doc.blockRules)) := by
  have hreplaced : env.replaced doc.blockRules x.engine = .ok (.holding doc.blockRules) :=
    env.replaced_of_not_refuses (env.refuses_eq_false_iff.2 ⟨hlist, hupdate⟩)
      (doc.ascending_blockRules hentries) _
  have hinstall := gives_install_of_ok env (x.fetching url) (p := doc.compile) hreplaced
  rw [installOutcome_of_no_fault hwrite] at hinstall
  exact gives_refresh_of_url hurl <|
    gives_refreshFrom_of_document hsource hdoc (gives_installDocument env _ hinstall)

/-- A refresh whose text is a policy of fewer than 2^32 entries puts just that policy in force, from
any state: no store content, no rules of the engine and no earlier policy stand in the way. -/
theorem refresh_installs (c : Config) (env : Surroundings) (s : State) {url text : String}
    {doc : PolicyDocument} (hurl : ((policyUrl c).run env s).1 = .ok (some url))
    (hsource : env.source s.fetched.length url = .ok text)
    (hdoc : PolicyDocument.ofText text = .ok doc) (hentries : doc.entries.length < 2 ^ 32)
    (hlist : env.listFault = none) (hupdate : env.updateFault = none)
    (hwrite : ∀ cell ∈ [Cell.blockRules, .redirectRules, .accessLock],
      env.writeFault cell.key = none) :
    ((refresh c).run env s).1 = .ok (.applied doc.stats) ∧
      InForce doc.compile ((refresh c).run env s).2 ∧
      ((refresh c).run env s).2.store.get? Cell.policyUrl.key =
        s.store.get? Cell.policyUrl.key ∧
      s.engine.apply (BlockRule.reconcile s.engine.rules doc.compile.blockRules) =
        .ok (.holding doc.compile.blockRules) := by
  replace hurl : s.enforcement.policyUrl env c = .ok (some url) :=
    (gives_policyUrl env _ c s rfl).1.symm.trans hurl
  -- no number wraps around, which is all that the engine could object to
  have hascending := doc.ascending_blockRules hentries
  have hreplaced : env.replaced doc.blockRules s.engine = .ok (.holding doc.blockRules) :=
    env.replaced_of_not_refuses (env.refuses_eq_false_iff.2 ⟨hlist, hupdate⟩) hascending _
  have hinstall := gives_install_of_ok env (s.enforcement.fetching url) (p := doc.compile) hreplaced
  have hgives := gives_refresh_of_url hurl <|
    gives_refreshFrom_of_document hsource hdoc (gives_installDocument env _ hinstall)
  rw [installOutcome_of_no_fault hwrite] at hgives
  obtain ⟨hanswer, hafter⟩ := hgives s rfl
  refine ⟨hanswer, inForce_of_enforcement hafter hwrite, ?_, ?_⟩
  · rw [get?_of_enforcement hafter, Enforcement.texts_installed_of_ne (by nofun) (by nofun) (by nofun),
      Enforcement.texts_fetching, texts_enforcement]
  · exact s.engine.apply_reconcile hascending

/-- A policy that blocks one pattern takes the place of a rule under the same number, although what
stands in the store cannot be read. -/
theorem refresh_installs_one_pattern :
    let c : Config := { Config.default with managedPolicyUrl := some "https://policy.example" }
    let env : Surroundings :=
      { Surroundings.offline "no route" ⟨0, 0⟩ with source := fun _ _ => .ok "urls: [url: '*ads*']" }
    let s := State.initial (.ofList [("blockRules", "?"), ("accessLock", "?")])
      (.holding [⟨1, "*old*"⟩])
    ((refresh c).run env s).1 = .ok (.applied ⟨1, 0, 1, 0⟩) ∧
      InForce ⟨[⟨1, "*ads*"⟩], [], .unlocked⟩ ((refresh c).run env s).2 := by
  intro c env s
  have hurl : ((policyUrl c).run env s).1 = .ok (some "https://policy.example") := rfl
  have hdoc : PolicyDocument.ofText "urls: [url: '*ads*']" =
      .ok ⟨false, none, .absent, [⟨some "*ads*", .absent⟩]⟩ := by decide +kernel
  have h := refresh_installs c env s hurl rfl hdoc (by decide) rfl rfl (fun _ _ => rfl)
  exact ⟨h.1, h.2.1⟩

end NavPolicy.Agent
