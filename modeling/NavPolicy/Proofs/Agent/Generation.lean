import NavPolicy.Proofs.Agent.Calls
import NavPolicy.Proofs.Agent.Install

/-!
# Rules of one generation

The block rules are held by the engine and the redirect rules by the shared matcher, and the two are
replaced one after the other.  Over any run of calls they belong together all the same: they are those
of the document that the engine has accepted last, or there are none of either
(`World.rules_of_generation`).

`Enforcement.OfGeneration` says what both are for a generation, and each call takes it from the
generation before to the one after (`World.ofGeneration_call`).  The shared matcher may be loaded from
the store as long as no refresh has replaced it; that brings back nothing, since until then nothing was
stored.

The engine keeps one rule under each number, so it holds the table of the block rules.  That is the list
of them as it is, unless there are so many that the numbers start anew.
-/

namespace NavPolicy.Agent

open Program (perform)

/-! ## Generations -/

/-- The document that is in force after a refresh from a URL, if one was in force before or none. -/
def Surroundings.generationFrom (env : Surroundings) (count : Nat) (e : Engine)
    (g : Option PolicyDocument) (url : String) : Option PolicyDocument :=
  match env.document? count url with
  | none => none
  | some doc =>
    match env.replaced doc.blockRules e with
    | .ok _ => some doc
    | .error _ => g

namespace World

variable (c : Config)

/-- The URL that a call refreshes from, if it does. -/
def refreshUrl? (w : World) (k : Call) : Option String :=
  match k.request, ((policyUrl c).run k.env w.state).1 with
  | .refresh, .ok url? => url?
  | _, _ => none

/-- The document that the engine has accepted last after a call, unless all rules were dropped since. -/
def generationAfter (w : World) (k : Call) (g : Option PolicyDocument) : Option PolicyDocument :=
  match w.refreshUrl? c k with
  | none => g
  | some url => k.env.generationFrom w.state.fetched.length w.state.engine g url

/-- The document that the engine has accepted last after calls, unless all rules were dropped since. -/
def generation (w : World) (g : Option PolicyDocument) : List Call → Option PolicyDocument
  | [] => g
  | k :: ks => (w.call c k).2.generation (w.generationAfter c k g) ks

/-- Whether the engine does as it is asked if the call is a refresh that drops all rules. -/
def ClearsFreely (w : World) (k : Call) : Prop :=
  ∀ url, w.refreshUrl? c k = some url → k.env.document? w.state.fetched.length url = none →
    k.env.listFault = none ∧ k.env.updateFault = none

/-- Whether the engine does as it is asked whenever one of the calls is a refresh that drops all
rules. -/
def AllClearFreely (w : World) : List Call → Prop
  | [] => True
  | k :: ks => w.ClearsFreely c k ∧ (w.call c k).2.AllClearFreely ks

end World

/-- The redirect rules of a generation. -/
def redirectRulesOf : Option PolicyDocument → List RedirectRule
  | none => []
  | some doc => doc.redirectRules

/-- Whether navigations are matched against these redirect rules, whatever the surroundings.  Only where
no matcher is shared yet and the stored rules cannot be read are they not matched at all. -/
def State.ServesFrom (s : State) (rules : List RedirectRule) : Prop :=
  ∀ env : Surroundings, (sharedMatcher.run env s).1 = .ok (.ofRules rules) ∨
    ∃ e, s.served = none ∧ env.readFault Cell.redirectRules.key = some e ∧
      (sharedMatcher.run env s).1 = .error (.io e)

/-! ## The invariant -/

namespace Enforcement

/-- Whether the rules are those of a generation, or none where there is no generation. -/
def OfGeneration (x : Enforcement) : Option PolicyDocument → Prop
  | none => x.engine = .empty ∧
      (x.served = some .empty ∨ x.served = none ∧ x.texts Cell.redirectRules.key = none)
  | some doc => x.engine = .holding (Table.ofList BlockRule.id doc.blockRules) ∧
      x.served = some (.ofRules doc.redirectRules)

namespace OfGeneration

variable {env : Surroundings} {x y : Enforcement} {g : Option PolicyDocument}

/-- Of which generation the rules are depends on the engine, the shared matcher and the stored redirect
rules alone. -/
theorem congr (h : x.OfGeneration g) (hengine : y.engine = x.engine) (hserved : y.served = x.served)
    (htexts : y.texts Cell.redirectRules.key = x.texts Cell.redirectRules.key) :
    y.OfGeneration g := by
  cases g with
  | none =>
    refine ⟨hengine.trans h.1, ?_⟩
    rw [hserved, htexts]
    exact h.2
  | some doc => exact ⟨hengine.trans h.1, hserved.trans h.2⟩

/-- An engine of any generation that does as it is asked is empty once it is cleared. -/
theorem cleared (h : x.OfGeneration g) (hrefuses : env.refuses = false) :
    (x.cleared env).OfGeneration none := by
  have hholding : ∃ rules, x.engine = .holding rules := by
    cases g with
    | none => exact ⟨[], h.1⟩
    | some doc => exact ⟨_, h.1⟩
  obtain ⟨rules, hrules⟩ := hholding
  refine ⟨?_, .inl served_cleared⟩
  rw [engine_cleared, hrules, Surroundings.cleared, hrefuses, Bool.false_or]
  cases rules with
  | nil => rfl
  | cons r rules => rfl

/-- Once an engine has taken the rules of a document, the rules are of that generation. -/
theorem installed {doc : PolicyDocument} {engine : Engine}
    (h : env.replaced doc.blockRules x.engine = .ok engine) :
    (x.installed env doc.compile engine).OfGeneration (some doc) := by
  obtain ⟨-, -, rfl⟩ := Surroundings.replaced_eq_ok h
  exact ⟨engine_installed, served_installed⟩

/-- Navigations are matched against the redirect rules of the generation. -/
theorem matcher_cases (h : x.OfGeneration g) (env : Surroundings) :
    x.matcher env = .ok (.ofRules (redirectRulesOf g)) ∨
      ∃ e, x.served = none ∧ env.readFault Cell.redirectRules.key = some e ∧
        x.matcher env = .error (.io e) := by
  cases g with
  | some doc => exact .inl (matcher_of_served h.2)
  | none =>
    rcases h.2 with hserved | ⟨hserved, htext⟩
    · exact .inl (matcher_of_served hserved)
    · -- there is nothing to load, unless the store cannot tell
      rw [matcher, hserved, read, htext]
      cases hfault : env.readFault Cell.redirectRules.key with
      | none => exact .inl rfl
      | some e => exact .inr ⟨e, rfl, rfl, rfl⟩

/-- A navigation shares the matcher of the generation. -/
theorem sharing (h : x.OfGeneration g) {m : Matcher} (hm : x.matcher env = .ok m) :
    OfGeneration { x with served := some m } g := by
  obtain rfl : m = .ofRules (redirectRulesOf g) := by
    rcases h.matcher_cases env with hmatcher | ⟨e, -, -, hmatcher⟩
    · exact Except.ok.inj (hm.symm.trans hmatcher)
    · exact absurd (hm.symm.trans hmatcher) (by simp)
  cases g with
  | none => exact ⟨h.1, .inl rfl⟩
  | some doc => exact ⟨h.1, rfl⟩

/-- A fetch leaves the generation as it is. -/
theorem fetching (h : x.OfGeneration g) (url : String) : (x.fetching url).OfGeneration g :=
  h.congr rfl rfl rfl

/-- Asking pages leaves the generation as it is. -/
theorem probing (h : x.OfGeneration g) (urls : List String) : (x.probing urls).OfGeneration g :=
  h.congr rfl rfl rfl

/-- Sending a tab somewhere leaves the generation as it is. -/
theorem sending (h : x.OfGeneration g) (tab : Int32) (target : Option String) :
    (x.sending env tab target).OfGeneration g := by
  rw [sending_eq]
  exact h.congr rfl rfl rfl

end OfGeneration

end Enforcement

/-! ## Calls -/

namespace Action.Edits

variable {env : Surroundings} {s : State} {a : Action} {g : Option PolicyDocument}

/-- A change of the store under another key leaves the generation as it is. -/
theorem ofGeneration_attempt {key : String} (hkey : key ≠ Cell.redirectRules.key)
    (hs : s.enforcement.OfGeneration g) (fault : Option IoError) {store : Store}
    {text : Option String}
    (hstore : ∀ k, store.get? k = if k = key then text else s.store.get? k) :
    (s.attempt fault { s with store }).2.enforcement.OfGeneration g := by
  cases fault with
  | some e => exact hs
  | none =>
    refine hs.congr rfl rfl ?_
    rw [texts_enforcement, texts_enforcement]
    exact (hstore _).trans (if_neg hkey.symm)

/-- An action that concerns the policy URL and the lock leaves the generation as it is. -/
theorem ofGeneration (h : a.Edits) (hs : s.enforcement.OfGeneration g) :
    (a.answer env s).2.enforcement.OfGeneration g := by
  cases a with
  | read key =>
    rw [OnlyLooks.answer_eq env s (a := .read key) trivial]
    exact hs
  | write key text => exact ofGeneration_attempt (key_ne h) hs _ (s.store.get?_set key text)
  | erase key => exact ofGeneration_attempt (key_ne h) hs _ (s.store.get?_erase key)
  | note n => exact hs
  | _ => exact h.elim

end Action.Edits

/-- A navigation leaves the generation as it is. -/
theorem ofGeneration_navigate (c : Config) (env : Surroundings) {s : State}
    {g : Option PolicyDocument} (hs : s.enforcement.OfGeneration g) (n : Navigation) :
    ((navigate c n).run env s).2.enforcement.OfGeneration g := by
  rcases enforcement_navigate_cases env c n s with hafter | ⟨m, urls, target, hmatcher, hafter⟩
  · rw [hafter]
    exact hs
  · rw [hafter]
    exact ((hs.sharing hmatcher).probing urls).sending n.tab target

/-- A refresh from a URL takes the generation before to the one after. -/
theorem Refreshed.ofGeneration {env : Surroundings} {x y : Enforcement} {c : Config}
    {a : Except Error RefreshOutcome} {g : Option PolicyDocument} {url : String}
    (h : Refreshed env x c a y) (hx : x.OfGeneration g) (hurl : x.policyUrl env c = .ok (some url))
    (hclear : env.document? x.fetched.length url = none → env.refuses = false) :
    y.OfGeneration (env.generationFrom x.fetched.length x.engine g url) := by
  have hfetching := hx.fetching url
  cases h with
  | unreadable h => exact absurd (h.symm.trans hurl) (by simp)
  | nothing h => exact absurd (h.symm.trans hurl) (by simp)
  | unavailable h hsource =>
    obtain rfl := Enforcement.policyUrl_unique h hurl
    have hnone := document?_of_unavailable hsource
    rw [Surroundings.generationFrom, hnone]
    exact hfetching.cleared (hclear hnone)
  | malformed h hsource htext =>
    obtain rfl := Enforcement.policyUrl_unique h hurl
    have hnone := document?_of_malformed hsource htext
    rw [Surroundings.generationFrom, hnone]
    exact hfetching.cleared (hclear hnone)
  | refused h hsource htext hreplaced =>
    obtain rfl := Enforcement.policyUrl_unique h hurl
    rw [Surroundings.generationFrom, document?_of_ok hsource htext]
    dsimp only
    rw [hreplaced]
    exact hfetching
  | installed h hsource htext hreplaced =>
    obtain rfl := Enforcement.policyUrl_unique h hurl
    rw [Surroundings.generationFrom, document?_of_ok hsource htext]
    dsimp only
    rw [hreplaced]
    exact .installed hreplaced

namespace World

variable {c : Config} {w : World} {k : Call} {g : Option PolicyDocument}

/-- A call other than a refresh refreshes from no URL. -/
theorem refreshUrl?_of_ne (h : k.request ≠ .refresh) : w.refreshUrl? c k = none := by
  rw [refreshUrl?]
  split
  · next hrequest _ => exact absurd hrequest h
  · rfl

/-- A refresh refreshes from the policy URL in force. -/
theorem refreshUrl?_of_refresh (h : k.request = .refresh) (url : String) :
    w.refreshUrl? c k = some url ↔ w.state.enforcement.policyUrl k.env c = .ok (some url) := by
  rw [refreshUrl?, h, (gives_policyUrl k.env _ c w.state rfl).1]
  cases w.state.enforcement.policyUrl k.env c with
  | error e => simp
  | ok url? => simp

/-- A refresh takes the generation before to the one after. -/
theorem ofGeneration_refresh (hrequest : k.request = .refresh) (hclear : w.ClearsFreely c k)
    (hw : w.state.enforcement.OfGeneration g) :
    ((refresh c).run k.env w.state).2.enforcement.OfGeneration (w.generationAfter c k g) := by
  have hcase : Refreshed k.env w.state.enforcement c _ _ := refreshed c w.state
  rw [generationAfter]
  cases hurl : w.refreshUrl? c k with
  | some url =>
    have hpolicy := (refreshUrl?_of_refresh hrequest url).1 hurl
    exact hcase.ofGeneration hw hpolicy fun hnone =>
      k.env.refuses_eq_false_iff.2 (hclear url hurl hnone)
  | none =>
    have hsame := hcase.enforcement_eq fun url h =>
      Option.some_ne_none url (((refreshUrl?_of_refresh hrequest url).2 h).symm.trans hurl)
    rw [hsame]
    exact hw

/-- A call takes the generation before to the one after. -/
theorem ofGeneration_call (hclear : w.ClearsFreely c k) (hw : w.state.enforcement.OfGeneration g) :
    (w.call c k).2.state.enforcement.OfGeneration (w.generationAfter c k g) := by
  by_cases hrefresh : k.request = .refresh
  · have hafter := ofGeneration_refresh hrefresh hclear hw
    rw [call, hrefresh]
    exact hafter
  · rw [generationAfter, refreshUrl?_of_ne hrefresh]
    by_cases hnavigate : ∃ n, k.request = .navigate n
    · obtain ⟨n, hrequest⟩ := hnavigate
      rw [call, hrequest]
      exact ofGeneration_navigate c k.env hw n
    · exact state_call_of_edits (I := fun s => s.enforcement.OfGeneration g)
        (fun _ _ ha => ha.ofGeneration) hrefresh (not_exists.1 hnavigate) hw

/-- Calls take the generation before to the one after. -/
theorem ofGeneration_after {ks : List Call} (hclear : w.AllClearFreely c ks)
    (hw : w.state.enforcement.OfGeneration g) :
    (w.after c ks).state.enforcement.OfGeneration (w.generation c g ks) := by
  induction ks generalizing w g with
  | nil => exact hw
  | cons k ks ih => exact ih hclear.2 (ofGeneration_call hclear.1 hw)

end World

/-- Navigations are matched against the redirect rules of the generation. -/
theorem servesFrom_of_ofGeneration {s : State} {g : Option PolicyDocument}
    (hs : s.enforcement.OfGeneration g) : s.ServesFrom (redirectRulesOf g) := by
  intro env
  rw [(gives_sharedMatcher env s.enforcement s rfl).1]
  exact hs.matcher_cases env

/-- After any calls on an agent that started with nothing, whatever the source answers and whatever
fails, so long as the engine lets all rules be dropped: if the engine has accepted a document and no
refresh has dropped the rules since, the engine holds the table of the block rules of the last such
document, which is all of them in their order as long as there are numbers for them, and navigations are
matched against its redirect rules.  Else there are no rules of either kind. -/
theorem World.rules_of_generation (c : Config) (ks : List Call)
    (hclear : (World.fresh (.initial .empty .empty)).AllClearFreely c ks) :
    let start := World.fresh (.initial .empty .empty)
    let s := (start.after c ks).state
    match start.generation c none ks with
    | none => s.engine = .empty ∧ s.ServesFrom []
    | some doc => s.engine = .holding (Table.ofList BlockRule.id doc.blockRules) ∧
        (doc.blockRules.length < 2 ^ 32 → s.engine.rules = doc.blockRules) ∧
        s.ServesFrom doc.redirectRules := by
  intro start s
  have hstart : start.state.enforcement.OfGeneration none := ⟨rfl, .inr ⟨rfl, rfl⟩⟩
  have hs : s.enforcement.OfGeneration (start.generation c none ks) :=
    ofGeneration_after hclear hstart
  have hserves := servesFrom_of_ofGeneration hs
  cases hg : start.generation c none ks with
  | none =>
    rw [hg] at hs hserves
    exact ⟨hs.1, hserves⟩
  | some doc =>
    rw [hg] at hs hserves
    refine ⟨hs.1, fun hlength => ?_, hserves⟩
    have hengine : s.engine = .holding (Table.ofList BlockRule.id doc.blockRules) := hs.1
    rw [hengine, Table.ofList_eq_self (doc.ascending_of_length_lt hlength)]
    rfl

/-- Where the engine refuses the rules of a second document, the rules of the first stay together. -/
theorem World.rules_of_generation_of_refusal :
    let c : Config := { Config.default with managedPolicyUrl := some "https://policy.example" }
    let refreshing (text : String) (updateFault : Option String) : Call :=
      ⟨{ Surroundings.offline "no route" ⟨0, 0⟩ with
        source := fun _ _ => .ok text, updateFault }, .refresh⟩
    let ks := [refreshing "urls: [url: '*ads*', \x7burl: 'a*', html: q\x7d]" none,
      refreshing "urls: [\x7burl: 'b*', html: r\x7d]" (some "busy")]
    let s := ((World.fresh (.initial .empty .empty)).after c ks).state
    s.engine.rules = [⟨1, "*ads*"⟩] ∧ s.ServesFrom [⟨"a*", ⟨some "q", none⟩, ⟨none, none⟩⟩] := by
  intro c refreshing ks s
  let doc : PolicyDocument := ⟨false, none, ⟨false, ⟨none, none⟩⟩,
    [⟨some "*ads*", ⟨false, ⟨none, none⟩⟩⟩, ⟨some "a*", ⟨true, ⟨some "q", none⟩⟩⟩]⟩
  have hsecond : (PolicyDocument.ofText "urls: [\x7burl: 'b*', html: r\x7d]").toOption ≠ none := by
    decide +kernel
  have hclear : (World.fresh (.initial .empty .empty)).AllClearFreely c ks :=
    ⟨fun _ _ _ => ⟨rfl, rfl⟩, fun _ _ hnone => absurd hnone hsecond, trivial⟩
  have hgeneration : (World.fresh (.initial .empty .empty)).generation c none ks = some doc := by
    decide +kernel
  have hrules := rules_of_generation c ks hclear
  dsimp only at hrules
  rw [hgeneration] at hrules
  exact ⟨hrules.2.1 (by decide), hrules.2.2⟩

end NavPolicy.Agent
