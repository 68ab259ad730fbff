import NavPolicy.Proofs.Agent.Install
import NavPolicy.Proofs.Agent.PolicyMeaning
import NavPolicy.Proofs.CommandLine.Inspect

/-!
# Checking a URL tells what the agent does

The command line goes through the block rules of a file in their order and compiles each pattern as it
comes to it, and it goes through the redirect rules rule by rule.  The agent keeps its block rules in an
engine, with the patterns compiled, and walks the candidates of all matching rules at once.  After a
refresh from the same text both come to the same answers (`check_agrees_with_agent`).
-/

namespace NavPolicy.Agent

open CommandLine (Treatment treatment checkFile loadPolicy unprobed)

/-- An engine blocks by the first of its rules that matches. -/
theorem blockingRule?_holding (rules : List BlockRule) (url : String) :
    (Engine.holding rules).blockingRule? url = CommandLine.blockingRule? rules url :=
  Engine.blockingRule?_holding rules url

/-- After a refresh from a text without failures, whatever was in force before, checking a URL against a
file with the same text prints that a rule blocks it exactly when the engine blocks it by that rule.  If
the engine does not block it, checking it without asking pages shows a redirect to a target exactly when
the agent, with all pages answering, sends a navigation there; and it prints that there is no redirect
exactly when the agent sends the navigation nowhere. -/
theorem check_agrees_with_agent (c : Config) (env : Surroundings) (s : State) {url text : String}
    {doc : PolicyDocument} (hurl : ((policyUrl c).run env s).1 = .ok (some url))
    (hsource : env.source s.fetched.length url = .ok text)
    (hdoc : PolicyDocument.ofText text = .ok doc) (hentries : doc.entries.length < 2 ^ 32)
    (hlist : env.listFault = none) (hupdate : env.updateFault = none)
    (hwrite : ∀ cell ∈ [Cell.blockRules, .redirectRules, .accessLock],
      env.writeFault cell.key = none) :
    let t := ((refresh c).run env s).2
    ((refresh c).run env s).1 = .ok (.applied doc.stats) ∧
      ∀ (u file elapsed : String) (timeoutMs : UInt64) (inspecting : Surroundings) (start : State),
        (∀ probing (rule : BlockRule),
          ((checkFile file elapsed (loadPolicy file (.ok text)) u probing timeoutMs).run
              inspecting start).1 =
            .ok [s!"Blocked by rule #{rule.id.toNat} ({rule.pattern})"] ↔
              t.engine.blockingRule? u = some rule) ∧
        (t.engine.blockingRule? u = none →
          let shown := ((treatment doc.compile u false timeoutMs).run inspecting start).1
          let checked := ((checkFile file elapsed (loadPolicy file (.ok text)) u false timeoutMs).run
            inspecting start).1
          checked = .ok [shown.text] ∧
            ∀ (later : Surroundings) (tab : Int32), later.listening = true →
              (∀ n v, later.page n v = some (.ok ())) →
              let answer := ((navigate c (.loading tab u)).run later t).1
              (∀ target, (∃ pattern, shown = .redirected pattern target) ↔
                answer = .ok (some target)) ∧
              (checked = .ok ["No rule matches"] ∨
                checked =
                  .ok ["Matched, but no redirect target is available; navigation proceeds"] ↔
                answer = .ok none)) := by
  intro t
  replace hurl : s.enforcement.policyUrl env c = .ok (some url) :=
    (gives_policyUrl env _ c s rfl).1.symm.trans hurl
  obtain ⟨hanswer, hafter⟩ :=
    gives_refresh_of_document hurl hsource hdoc hentries hlist hupdate hwrite s rfl
  have hengine : t.engine = .holding doc.blockRules :=
    (congrArg Enforcement.engine hafter).trans Enforcement.engine_installed
  have hserved : t.served = some (.ofRules doc.redirectRules) :=
    (congrArg Enforcement.served hafter).trans Enforcement.served_installed
  refine ⟨hanswer, fun u file elapsed timeoutMs inspecting start => ?_⟩
  have hblocking : t.engine.blockingRule? u =
      CommandLine.blockingRule? doc.compile.blockRules u := by
    rw [hengine, blockingRule?_holding]
    rfl
  rw [hblocking]
  refine ⟨fun probing rule => ?_, fun hnone => ?_⟩
  · -- the words that are printed are those for the treatment, and they tell the rule
    obtain ⟨later, hchecked⟩ :=
      CommandLine.exists_run_checkFile inspecting start hdoc file elapsed u probing timeoutMs
    rw [hchecked, Except.ok.injEq, List.singleton_inj,
      ← CommandLine.run_treatment_eq_blocked_iff inspecting later doc.compile u probing timeoutMs]
    exact Treatment.text_eq_iff (.blocked rule) (by simp)
  · intro shown checked
    have hshown : shown = unprobed doc.compile u :=
      CommandLine.run_treatment_unprobed inspecting start doc.compile u timeoutMs
    have hchecked : checked = .ok [shown.text] := by
      obtain ⟨later, hlater⟩ :=
        CommandLine.exists_run_checkFile inspecting start hdoc file elapsed u false timeoutMs
      rw [CommandLine.run_treatment_unprobed, ← hshown] at hlater
      exact hlater
    refine ⟨hchecked, fun later tab hlistening hpages => ?_⟩
    intro answer
    have hnavigate : answer = .ok (((Matcher.ofRules doc.compile.redirectRules).matching u).flatMap
        RedirectRule.candidates |>.findSome? (Meaning.usable? fun _ => true)) :=
      (navigate_of_served hserved hlistening (fun n v => iff_of_true (hpages n v) rfl) tab u).1
    refine ⟨fun target => ?_, ?_⟩
    · rw [hshown, hnavigate, Except.ok.injEq]
      exact CommandLine.exists_unprobed_eq_redirected_iff hnone target
    · rw [hnavigate, Except.ok.injEq, ← CommandLine.unprobed_without_target_iff hnone, ← hshown,
        hchecked, Except.ok.injEq, Except.ok.injEq, List.singleton_inj, List.singleton_inj]
      exact or_congr (Treatment.text_eq_iff .unmatched (by simp))
        (Treatment.text_eq_iff .targetless (by simp))

/-- An agent that has held another rule under the same number blocks and redirects as the check says. -/
theorem check_agrees_with_agent_two_entries :
    let text := "urls: [url: '*ads*', \x7burl: 'a*', htmlsrc: p\x7d]"
    let c : Config := { Config.default with managedPolicyUrl := some "https://policy.example" }
    let env : Surroundings :=
      { Surroundings.offline "no route" ⟨0, 0⟩ with source := fun _ _ => .ok text }
    let later : Surroundings := { env with page := fun _ _ => some (.ok ()) }
    let s := State.initial .empty (.holding [⟨1, "*old*"⟩])
    let t := ((refresh c).run env s).2
    ((checkFile "p.yaml" "3" (loadPolicy "p.yaml" (.ok text)) "xads" true 100).run env s).1 =
        .ok ["Blocked by rule #1 (*ads*)"] ∧
      t.engine.blockingRule? "xads" = some ⟨1, "*ads*"⟩ ∧
      ((navigate c (.loading 7 "ab")).run later t).1 = .ok (some "p") := by
  intro text c env later s t
  have hurl : ((policyUrl c).run env s).1 = .ok (some "https://policy.example") := rfl
  have hdoc : PolicyDocument.ofText text = .ok ⟨false, none, .absent,
      [⟨some "*ads*", .absent⟩, ⟨some "a*", .ofDestination ⟨none, some "p"⟩⟩]⟩ := by decide +kernel
  obtain ⟨-, hagree⟩ :=
    check_agrees_with_agent c env s hurl rfl hdoc (by decide) rfl rfl (fun _ _ => rfl)
  have hblocked : ((checkFile "p.yaml" "3" (loadPolicy "p.yaml" (.ok text)) "xads" true 100).run
      env s).1 = .ok ["Blocked by rule #1 (*ads*)"] := by decide +kernel
  have hnone : t.engine.blockingRule? "ab" = none := by decide +kernel
  obtain ⟨-, hnavigate⟩ := (hagree "ab" "p.yaml" "3" 100 env s).2 hnone
  refine ⟨hblocked, ((hagree "xads" "p.yaml" "3" 100 env s).1 true ⟨1, "*ads*"⟩).1 hblocked, ?_⟩
  exact ((hnavigate later 7 rfl fun _ _ => rfl).1 "p").1 ⟨"a*", by decide +kernel⟩

end NavPolicy.Agent
