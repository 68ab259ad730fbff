import NavPolicy.Agent.Loop
import NavPolicy.Proofs.Agent.Install
import NavPolicy.Proofs.Agent.Standing

/-!
# Refreshing again

A refresh that finds in force what it would bring about changes nothing that counts, and neither does
one whose rules the engine refuses (`owes_refreshTask`).  With a source that always answers the same,
that is how things stand once a refresh has been made (`Refreshed.steady`): what it could bring about
it has brought about, and where the engine or the store stood in the way they will do so again.
-/

namespace NavPolicy.Agent

open Program (perform)

variable {env : Surroundings} {x y : Enforcement}

/-! ## Where a refresh changes nothing -/

namespace Enforcement

/-- Whether a cell holds the text of a value, as far as the cell can be written. -/
def Holds (env : Surroundings) (x : Enforcement) (cell : Cell) (v : cell.Content) : Prop :=
  env.writeFault cell.key = none → x.texts cell.key = some (cell.encode v)

/-- Writing what a cell holds changes nothing. -/
theorem Holds.write_eq {cell : Cell} {v : cell.Content} (h : x.Holds env cell v) :
    x.write env cell v = x := by
  rw [write]
  cases hfault : env.writeFault cell.key with
  | some e => rfl
  | none =>
    have htexts : Function.update x.texts cell.key (some (cell.encode v)) = x.texts :=
      Function.update_eq_self_iff.2 (h hfault).symm
    rw [put, htexts]

/-- Whether dropping all rules would change nothing. -/
structure HasNoRules (env : Surroundings) (x : Enforcement) : Prop where
  engine : env.cleared x.engine = x.engine
  matcher : x.matcher env = .ok .empty
  blockRules : x.Holds env .blockRules []
  redirectRules : x.Holds env .redirectRules []

/-- Whether installing a policy would change nothing. -/
structure HasInForce (env : Surroundings) (x : Enforcement) (p : CompiledPolicy) : Prop where
  engine : env.replaced p.blockRules x.engine = .ok x.engine
  matcher : x.matcher env = .ok (.ofRules p.redirectRules)
  blockRules : x.Holds env .blockRules p.blockRules
  redirectRules : x.Holds env .redirectRules p.redirectRules
  accessLock : x.Holds env .accessLock p.lock

end Enforcement

/-- Whether refreshing would change nothing: what it would bring about is so already, or the engine
refuses it. -/
def Enforcement.Steady (env : Surroundings) (c : Config) (x : Enforcement) : Prop :=
  ∀ url, x.policyUrl env c = .ok (some url) → ∀ count,
    match env.document? count url with
    | none => x.HasNoRules env
    | some doc => x.HasInForce env doc.compile ∨
        ∃ e, env.replaced doc.blockRules x.engine = .error e

/-- Clearing an engine that is cleared owes nothing. -/
theorem owes_clearEngine (h : env.cleared x.engine = x.engine) :
    clearEngine.Owes env x (fun _ => True) [] := by
  refine (owes_listRules env x).bind_eq ?_
  rw [Surroundings.listed]
  cases hlist : env.listFault with
  | some reason => exact .pure trivial
  | none =>
    dsimp only
    split
    · exact .pure trivial
    · next hu =>
      cases hupdate : env.updateFault with
      | some reason =>
        have hrefused : env.updated (.clearing x.engine.rules) x.engine =
            .error (.refused reason) := by rw [Surroundings.updated, hupdate]
        exact (owes_update_of_error hrefused).bind_eq (.pure trivial)
      | none =>
        have hrules : x.engine.rules = [] := by
          rw [← h]
          exact env.rules_cleared_of_not_refuses (env.refuses_eq_false_iff.2 ⟨hlist, hupdate⟩) _
        rw [hrules] at hu
        exact absurd rfl hu

/-- Dropping all rules where there are none owes nothing. -/
theorem owes_clearRules (h : x.HasNoRules env) : clearRules.Owes env x (fun _ => True) [] := by
  refine (owes_setMatcher h.matcher).bind_true fun _ => ?_
  refine (owes_clearEngine h.engine).bind_true fun engine => ?_
  refine (owes_writeCell env x .blockRules (congrArg _ h.blockRules.write_eq)).bind_eq ?_
  refine (owes_writeCell env x .redirectRules (congrArg _ h.redirectRules.write_eq)).bind_eq ?_
  refine owes_note.bind_true fun _ => ?_
  split <;> exact .pure trivial

/-- The fail-safe owes nothing where there are no rules. -/
theorem owes_failSafe (h : x.HasNoRules env) (result : String) :
    (failSafe result).Owes env x (fun _ => True) [] := by
  refine (owes_clearRules h).bind_true fun r => ?_
  have hresult : (noteResult result).Owes env x (fun _ => True) [] :=
    .of_onlyRecords (onlyRecords_noteResult result)
  cases r with
  | ok u => exact hresult
  | error e => exact owes_note.bind_true fun _ => hresult

/-- Installing what the engine refuses owes nothing. -/
theorem owes_install_of_error {p : CompiledPolicy} {e : EngineError}
    (h : env.replaced p.blockRules x.engine = .error e) :
    (install p).Owes env x (fun _ => True) [] := by
  refine (owes_listRules env x).bind_eq ?_
  rw [Surroundings.replaced] at h
  cases hlisted : env.listed x.engine with
  | error e' => exact .pure trivial
  | ok installed =>
    rw [hlisted] at h
    exact (owes_update_of_error h).bind_eq (.pure trivial)

/-- Installing what is in force owes nothing. -/
theorem owes_install_of_hasInForce {p : CompiledPolicy} (h : x.HasInForce env p) :
    (install p).Owes env x (fun _ => True) [] := by
  have hengine := h.engine
  refine (owes_listRules env x).bind_eq ?_
  rw [Surroundings.replaced] at hengine
  cases hlisted : env.listed x.engine with
  | error e => exact .pure trivial
  | ok installed =>
    rw [hlisted] at hengine
    refine (owes_update_of_ok hengine).bind_eq ?_
    refine owes_note.bind_true fun _ => ?_
    refine (Program.Owes.of_onlyRecords (onlyRecords_notes _)).bind_true fun _ => ?_
    refine (owes_setMatcher h.matcher).bind_true fun _ => ?_
    refine (owes_writeCell env x .blockRules (congrArg _ h.blockRules.write_eq)).bind_eq ?_
    refine (owes_writeCell env x .redirectRules (congrArg _ h.redirectRules.write_eq)).bind_eq ?_
    refine (owes_writeCell env x .accessLock (congrArg _ h.accessLock.write_eq)).bind_eq ?_
    split
    · exact .pure trivial
    · exact .pure trivial
    · exact .pure trivial
    · exact owes_note.bind_true fun _ => .pure trivial

/-- Installing a document owes nothing if installing its policy does not. -/
theorem owes_installDocument {doc : PolicyDocument}
    (h : (install doc.compile).Owes env x (fun _ => True) []) :
    (installDocument doc).Owes env x (fun _ => True) [] := by
  obtain ⟨ns, heq⟩ := exists_installDocument_eq doc
  rw [heq]
  refine (Program.Owes.of_onlyRecords (onlyRecords_notes ns)).bind_true fun _ => ?_
  exact h.bind_true fun _ => .pure trivial

/-- Telling how a refresh went only records. -/
theorem onlyRecords_reportRefresh (r : Except Error RefreshOutcome) :
    (reportRefresh r).All Action.OnlyRecords := by
  rcases r with e | (_ | stats)
  · exact .perform trivial
  · exact .pure _
  · exact .perform trivial

/-- A refresh without a policy URL only records. -/
theorem onlyRecords_refreshNothing : refreshNothing.All Action.OnlyRecords := by
  refine .bind onlyRecords_noteAttempt fun _ => .bind (onlyRecords_noteResult _) fun _ => ?_
  exact .bind (.perform trivial) fun _ => .pure _

section Refreshes

variable {c : Config} (hsource : ∀ m n url, env.source m url = env.source n url)
variable (hx : x.Steady env c)

include hsource hx

/-- Refreshing from the URL in force owes nothing where a refresh would change nothing. -/
theorem owes_refreshFrom {url : String} (hurl : x.policyUrl env c = .ok (some url)) :
    (refreshFrom url).Owes env x (fun _ => True) [] := by
  have hsteady := hx url hurl 0
  refine (Program.Owes.of_onlyRecords onlyRecords_noteAttempt).bind_true fun _ => ?_
  refine (owes_fetch fun count => hsource count 0 url).bind_eq ?_
  cases hfetched : env.source 0 url with
  | error e =>
    rw [document?_of_unavailable hfetched] at hsteady
    refine owes_note.bind_true fun _ => ?_
    exact (owes_failSafe hsteady _).bind_true fun _ => .pure trivial
  | ok text =>
    refine (Program.Owes.of_onlyRecords onlyRecords_noteSuccess).bind_true fun _ => ?_
    cases htext : PolicyDocument.ofText text with
    | error e =>
      rw [document?_of_malformed hfetched htext] at hsteady
      refine owes_note.bind_true fun _ => ?_
      exact (owes_failSafe hsteady _).bind_true fun _ => .pure trivial
    | ok doc =>
      rw [document?_of_ok hfetched htext] at hsteady
      rcases hsteady with hforce | ⟨e, he⟩
      · exact owes_installDocument (owes_install_of_hasInForce hforce)
      · exact owes_installDocument (owes_install_of_error he)

/-- The task of a refresh owes nothing where a refresh would change nothing. -/
theorem owes_refreshTask : (refreshTask c).Owes env x (fun _ => True) [] := by
  have hend (r : Except Error RefreshOutcome) :
      (perform (.release .refresh) >>= fun _ => pure r).Owes env x (fun _ => True) [] :=
    owes_release.bind_true fun _ => .pure trivial
  refine Program.Owes.bind_true ?_ fun r => .of_onlyRecords (onlyRecords_reportRefresh r)
  have hurl := owes_policyUrl env x c
  refine owes_acquire.bind_true fun _ => ?_
  refine hurl.bind_eq ?_
  cases h : x.policyUrl env c with
  | error e => exact hend _
  | ok url? =>
    cases url? with
    | none => exact (Program.Owes.of_onlyRecords onlyRecords_refreshNothing).bind_true hend
    | some url => exact (owes_refreshFrom hsource hx h).bind_true hend

end Refreshes

/-! ## Once is enough -/

namespace Enforcement

/-- The policy URL in force depends on the text of its cell alone. -/
theorem policyUrl_congr (h : x.texts Cell.policyUrl.key = y.texts Cell.policyUrl.key)
    (c : Config) : x.policyUrl env c = y.policyUrl env c := by
  rw [policyUrl, policyUrl, read, read, h]

/-- Once all rules are dropped, dropping them changes nothing. -/
theorem hasNoRules_cleared : (x.cleared env).HasNoRules env where
  engine := by rw [engine_cleared, env.cleared_cleared]
  matcher := matcher_of_served served_cleared
  blockRules h := by rw [texts_cleared_blockRules, if_pos h]
  redirectRules h := by rw [texts_cleared_redirectRules, if_pos h]

/-- Once a policy is installed, installing it changes nothing. -/
theorem hasInForce_installed {p : CompiledPolicy} {engine : Engine}
    (h : env.replaced p.blockRules x.engine = .ok engine) :
    (x.installed env p engine).HasInForce env p where
  engine := by
    rw [engine_installed]
    exact Surroundings.replaced_replaced h
  matcher := matcher_of_served served_installed
  blockRules h := by rw [texts_installed_blockRules, if_pos h]
  redirectRules h := by rw [texts_installed_redirectRules, if_pos h]
  accessLock h := by rw [texts_installed_accessLock, if_pos h]

end Enforcement

/-- After a refresh, refreshing again changes nothing. -/
theorem Refreshed.steady {c : Config} {a : Except Error RefreshOutcome}
    (hsource : ∀ m n url, env.source m url = env.source n url) (h : Refreshed env x c a y) :
    y.Steady env c := by
  intro url hurl count
  cases h with
  | unreadable h => exact absurd (h.symm.trans hurl) (by simp)
  | nothing h => exact absurd (h.symm.trans hurl) (by simp)
  | unavailable h hfetched =>
    rw [Enforcement.policyUrl_congr (Enforcement.texts_cleared_of_ne (by nofun) (by nofun))] at hurl
    obtain rfl := Enforcement.policyUrl_unique h hurl
    rw [hsource _ count] at hfetched
    rw [document?_of_unavailable hfetched]
    exact Enforcement.hasNoRules_cleared
  | malformed h hfetched htext =>
    rw [Enforcement.policyUrl_congr (Enforcement.texts_cleared_of_ne (by nofun) (by nofun))] at hurl
    obtain rfl := Enforcement.policyUrl_unique h hurl
    rw [hsource _ count] at hfetched
    rw [document?_of_malformed hfetched htext]
    exact Enforcement.hasNoRules_cleared
  | refused h hfetched htext hreplaced =>
    obtain rfl := Enforcement.policyUrl_unique h hurl
    rw [hsource _ count] at hfetched
    rw [document?_of_ok hfetched htext]
    exact .inr ⟨_, hreplaced⟩
  | installed h hfetched htext hreplaced =>
    rw [Enforcement.policyUrl_congr
      (Enforcement.texts_installed_of_ne (by nofun) (by nofun) (by nofun))] at hurl
    obtain rfl := Enforcement.policyUrl_unique h hurl
    rw [hsource _ count] at hfetched
    rw [document?_of_ok hfetched htext]
    exact .inl (Enforcement.hasInForce_installed hreplaced)

end NavPolicy.Agent
