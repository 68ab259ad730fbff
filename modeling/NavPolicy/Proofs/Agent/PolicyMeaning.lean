import NavPolicy.Proofs.Agent.Calls
import NavPolicy.Proofs.Agent.Install
import NavPolicy.Proofs.Policy.Meaning

/-!
# Navigations mean what the policy says

Once a refresh has applied a policy text, and until the next refresh, every navigation is answered by
`Meaning.firstHit` of the mapping that the text means: the agent's scan of the compiled rules, its probes
and its sending of overrides come to that and nothing else.
-/

namespace NavPolicy.Agent

variable {c : Config} {env : Surroundings} {s : State}

/-- A refresh that applies a policy had a text that means a mapping, and navigations are matched against
the redirect rules of its document. -/
theorem exists_mapping_of_applied {stats : CompileStats}
    (h : ((refresh c).run env s).1 = .ok (.applied stats)) :
    ∃ url text root, ((policyUrl c).run env s).1 = .ok (some url) ∧
      env.source s.fetched.length url = .ok text ∧
      Yaml.Value.ofText text = .ok (.mapping root) ∧
      ((refresh c).run env s).2.served =
        some (.ofRules (PolicyDocument.ofEntries root).redirectRules) := by
  have hrefreshed : Refreshed env s.enforcement c ((refresh c).run env s).1
      ((refresh c).run env s).2.enforcement := refreshed c s
  obtain ⟨url, text, doc, engine, hurl, hsource, htext, -, hafter⟩ := hrefreshed.exists_installed h
  obtain ⟨root, hroot, rfl⟩ := PolicyDocument.ofText_eq_ok_iff.1 htext
  refine ⟨url, text, root, (gives_policyUrl env _ c s rfl).1.trans hurl, hsource, hroot, ?_⟩
  exact (congrArg Enforcement.served hafter).trans Enforcement.served_installed

/-- With a shared matcher, pages that answer always or never, and a browser that listens, a navigation
leads to the first usable candidate of the rules that match its URL. -/
theorem navigate_of_served {live : String → Bool} {m : Matcher} (hserved : s.served = some m)
    (hlistening : env.listening = true)
    (hlive : ∀ n url, env.page n url = some (.ok ()) ↔ live url = true)
    (tab : Int32) (url : String) :
    let target := (candidatesOf (m.matching url)).findSome? (Meaning.usable? live)
    ((navigate c (.loading tab url)).run env s).1 = .ok target ∧
      ((navigate c (.loading tab url)).run env s).2.sent =
        s.sent ++ (target.map (Override.mk tab)).toList := by
  have hmatcher : s.enforcement.matcher env = .ok m := matcher_of_served hserved
  obtain ⟨hanswer, hafter⟩ :=
    gives_navigate_of_matcher c (n := .loading tab url) rfl hmatcher s rfl
  -- how often pages were asked before does not matter to these
  have hanswers (n : Nat) (v : String) : env.answers n v = live v := by
    rw [Surroundings.answers, Bool.eq_iff_iff, decide_eq_true_iff]
    exact hlive n v
  rw [Meaning.target_firstUsable hanswers] at hanswer hafter
  refine ⟨hanswer.trans (delivered_of_listening hlistening _), ?_⟩
  rw [sending_eq, if_pos hlistening] at hafter
  exact congrArg Enforcement.sent hafter

/-- With a shared matcher for the rules of a document, pages that answer always or never, and a browser
that listens, a navigation leads where the policy leads its URL. -/
theorem navigate_loading {live : String → Bool} {root : Meaning.Mapping}
    (hserved : s.served = some (.ofRules (PolicyDocument.ofEntries root).redirectRules))
    (hlistening : env.listening = true)
    (hlive : ∀ n url, env.page n url = some (.ok ()) ↔ live url = true)
    (tab : Int32) (url : String) :
    ((navigate c (.loading tab url)).run env s).1 = .ok (Meaning.firstHit live root url) ∧
      ((navigate c (.loading tab url)).run env s).2.sent =
        s.sent ++ ((Meaning.firstHit live root url).map (Override.mk tab)).toList := by
  have hlive' (n : Nat) (v : String) : (fun _ : Nat => live) n v = live v := rfl
  have htarget := Meaning.target_eq_firstHit hlive' 0 root url
  rw [Meaning.target_firstUsable hlive'] at htarget
  rw [← htarget]
  exact navigate_of_served hserved hlistening hlive tab url

/-- After a refresh that has applied a policy, and whatever calls but another refresh come then, a
navigation that begins to load a URL leads where the policy leads the URL, and its tab is sent there;
every other event sends nothing and asks no page. -/
theorem navigate_of_applied (c : Config) (env : Surroundings) (s : State) {stats : CompileStats}
    (h : ((refresh c).run env s).1 = .ok (.applied stats)) :
    ∃ url text root, ((policyUrl c).run env s).1 = .ok (some url) ∧
      env.source s.fetched.length url = .ok text ∧
      Yaml.Value.ofText text = .ok (.mapping root) ∧
      ∀ session ks, (∀ k ∈ ks, Call.request k ≠ .refresh) →
        let t := ((World.mk ((refresh c).run env s).2 session).after c ks).state
        (∀ (later : Surroundings) (live : String → Bool), later.listening = true →
          (∀ n v, later.page n v = some (.ok ()) ↔ live v = true) → ∀ tab u,
            ((navigate c ⟨tab, .loading, some u⟩).run later t).1 =
                .ok (Meaning.firstHit live root u) ∧
              ((navigate c ⟨tab, .loading, some u⟩).run later t).2.sent = t.sent ++
                ((Meaning.firstHit live root u).map (Override.mk tab)).toList) ∧
          ∀ (later : Surroundings) (n : Navigation), n.phase ≠ .loading ∨ n.url = none →
            ((navigate c n).run later t).1 = .ok none ∧
              ((navigate c n).run later t).2.sent = t.sent ∧
              ((navigate c n).run later t).2.probed = t.probed := by
  obtain ⟨url, text, root, hurl, hsource, hroot, hserved⟩ := exists_mapping_of_applied h
  refine ⟨url, text, root, hurl, hsource, hroot, fun session ks hks => ⟨?_, ?_⟩⟩
  · intro later live hlistening hlive tab u
    exact navigate_loading (World.served_after hks hserved) hlistening hlive tab u
  · intro later n hn
    have htarget : n.target? = none := by
      rw [Navigation.target?]
      rcases hn with hphase | hnone
      · cases hn : n.phase with
        | loading => exact absurd hn hphase
        | complete => rfl
      · rw [hnone]
        cases n.phase <;> rfl
    obtain ⟨hanswer, hafter⟩ := gives_navigate_of_target?_eq_none later c htarget _ rfl
    exact ⟨hanswer, congrArg Enforcement.sent hafter, congrArg Enforcement.probed hafter⟩

/-- A policy text with two entries, the first of which names a page. -/
def twoEntries : String := "urls: [\x7burl: 'a*', htmlsrc: p\x7d, \x7burl: '*b', html: q\x7d]"

/-- Where a policy text leads a URL, if it is one. -/
def hitOfText (live : String → Bool) (text url : String) : Option String :=
  match Yaml.Value.ofText text with
  | .ok (.mapping root) => Meaning.firstHit live root url
  | _ => none

/-- Where the page of the first entry does not answer, the second entry has its say. -/
theorem navigate_of_applied_two_entries :
    let c : Config := { Config.default with managedPolicyUrl := some "https://policy.example" }
    let env : Surroundings :=
      { Surroundings.offline "no route" ⟨0, 0⟩ with source := fun _ _ => .ok twoEntries }
    let s := ((refresh c).run env (State.initial .empty .empty)).2
    ((refresh c).run env (State.initial .empty .empty)).1 = .ok (.applied ⟨2, 0, 0, 2⟩) ∧
      ((navigate c ⟨7, .loading, some "ab"⟩).run env s).1 =
        .ok (some "data:text/html;charset=utf-8,q") := by
  intro c env s
  have happlied : ((refresh c).run env (State.initial .empty .empty)).1 =
      .ok (.applied ⟨2, 0, 0, 2⟩) := by decide +kernel
  refine ⟨happlied, ?_⟩
  obtain ⟨url, text, root, -, hsource, hroot, hnavigate⟩ := navigate_of_applied c env _ happlied
  obtain rfl := Except.ok.inj hsource
  -- `root` is known by its text alone, so the scan is computed from the text
  have hhit : hitOfText (fun _ => false) twoEntries "ab" =
      some "data:text/html;charset=utf-8,q" := by decide +kernel
  rw [hitOfText, hroot] at hhit
  obtain ⟨hanswer, -⟩ := (hnavigate (fun _ => .fresh) [] (by simp)).1 env (fun _ => false) rfl
    (fun n v => by simp [env, Surroundings.offline]) 7 "ab"
  exact hanswer.trans (congrArg _ hhit)

end NavPolicy.Agent
