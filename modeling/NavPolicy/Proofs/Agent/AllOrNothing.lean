import NavPolicy.Proofs.Agent.Install

/-!
# Installs that fail

A refresh whose text is a policy installs it or leaves everything as it was, and the engine alone decides
which (`refresh_all_or_nothing`).  Once the engine has taken the block rules the rest follows: the
matcher is replaced, every value is written, and a write that fails stops neither the ones after it nor
the matcher.
-/

namespace NavPolicy.Agent

/-- Whether a cell holds a value in the later state, or the text from the earlier one if the value could
not be written. -/
def Written (env : Surroundings) (s t : State) (cell : Cell) (v : cell.Content) : Prop :=
  if env.writeFault cell.key = none then cell.decode (t.store.get? cell.key) = .ok (some v)
  else t.store.get? cell.key = s.store.get? cell.key

variable {env : Surroundings} {s t : State} {cell : Cell} {x : Enforcement}

/-- A cell whose text is that of a value unless it could not be written. -/
theorem written_of_texts [Enforced cell] [Json.Persisted.Lawful cell.Content] {v : cell.Content}
    (ht : t.enforcement = x)
    (hx : x.texts cell.key = if env.writeFault cell.key = none then some (cell.encode v)
      else s.enforcement.texts cell.key) : Written env s t cell v := by
  rw [← get?_of_enforcement ht, texts_enforcement] at hx
  rw [Written, hx]
  split
  · exact cell.decode_encode v
  · rfl

/-- States that enforce the same texts have the same text under every key but those of the record. -/
theorem get?_of_texts (h : t.enforcement.texts = s.enforcement.texts) {key : String}
    (hkey : key ∉ recordKeys) : t.store.get? key = s.store.get? key := by
  have htexts := congrFun h key
  simp only [State.enforcement, if_neg hkey] at htexts
  exact htexts

/-- A refresh whose text is a policy leaves everything but the record of fetches as it was if the engine
refuses the block rules, at the listing or at the update; otherwise the engine and the matcher have the
new rules whatever the store does, each value is stored unless its own write fails, and the first failure
is told. -/
theorem refresh_all_or_nothing (c : Config) (env : Surroundings) (s : State) {url text : String}
    {doc : PolicyDocument} (hurl : ((policyUrl c).run env s).1 = .ok (some url))
    (hsource : env.source s.fetched.length url = .ok text)
    (hdoc : PolicyDocument.ofText text = .ok doc) :
    let answer := ((refresh c).run env s).1
    let t := ((refresh c).run env s).2
    (∀ e, env.replaced doc.compile.blockRules s.engine = .error e →
      answer = .error (.engine e) ∧ t.engine = s.engine ∧ t.served = s.served ∧
        ∀ key ∉ recordKeys, t.store.get? key = s.store.get? key) ∧
    (∀ engine, env.replaced doc.compile.blockRules s.engine = .ok engine →
      answer = (env.installOutcome.map fun () => .applied doc.stats) ∧
      t.engine = .holding (Table.ofList BlockRule.id doc.compile.blockRules) ∧
      (doc.entries.length < 2 ^ 32 → t.engine = .holding doc.compile.blockRules) ∧
      t.served = some (.ofRules doc.compile.redirectRules) ∧
      Written env s t .blockRules doc.compile.blockRules ∧
      Written env s t .redirectRules doc.compile.redirectRules ∧
      Written env s t .accessLock doc.compile.lock ∧
      t.store.get? Cell.policyUrl.key = s.store.get? Cell.policyUrl.key) := by
  intro answer t
  replace hurl : s.enforcement.policyUrl env c = .ok (some url) :=
    (gives_policyUrl env _ c s rfl).1.symm.trans hurl
  have hrefresh {r : Except Error Unit} {y : Enforcement}
      (h : (install doc.compile).Gives env (s.enforcement.fetching url) r y) :
      answer = (r.map fun () => .applied doc.stats) ∧ t.enforcement = y :=
    gives_refresh_of_url hurl
      (gives_refreshFrom_of_document hsource hdoc (gives_installDocument env _ h)) s rfl
  constructor
  · intro e hrefused
    obtain ⟨hanswer, ht⟩ :=
      hrefresh (gives_install_of_error env (s.enforcement.fetching url) hrefused)
    have htexts : t.enforcement.texts = s.enforcement.texts :=
      (congrArg Enforcement.texts ht).trans (s.enforcement.texts_fetching url)
    exact ⟨hanswer, congrArg Enforcement.engine ht, congrArg Enforcement.served ht,
      fun key hkey => get?_of_texts htexts hkey⟩
  · intro engine haccepted
    obtain ⟨hanswer, ht⟩ :=
      hrefresh (gives_install_of_ok env (s.enforcement.fetching url) haccepted)
    have hengine : t.engine = .holding (Table.ofList BlockRule.id doc.compile.blockRules) :=
      (congrArg Enforcement.engine ht).trans
        (Enforcement.engine_installed.trans (Surroundings.replaced_eq_ok haccepted).2.2)
    refine ⟨hanswer, hengine, fun hentries => ?_,
      (congrArg Enforcement.served ht).trans Enforcement.served_installed,
      written_of_texts ht Enforcement.texts_installed_blockRules,
      written_of_texts ht Enforcement.texts_installed_redirectRules,
      written_of_texts ht Enforcement.texts_installed_accessLock, ?_⟩
    · exact hengine.trans
        (congrArg Engine.holding (Table.ofList_eq_self (doc.ascending_blockRules hentries)))
    · rw [get?_of_enforcement ht,
        Enforcement.texts_installed_of_ne (by decide) (by decide) (by decide),
        Enforcement.texts_fetching, texts_enforcement]

/-- An engine that lists no rules keeps a rule that the policy would have dropped; one that takes the
policy's rules has them although neither the redirect rules nor the lock can be stored, and the first of
these failures is told. -/
theorem refresh_all_or_nothing_faults :
    let c : Config := { Config.default with managedPolicyUrl := some "https://policy.example" }
    let env : Surroundings :=
      { Surroundings.offline "no route" ⟨0, 0⟩ with source := fun _ _ => .ok "urls: [url: '*ads*']" }
    let silent := { env with listFault := some "busy" }
    let full := { env with
      writeFault := fun key =>
        if key = "redirectRules" then some .busy
        else if key = "accessLock" then some .occupied else none }
    let s := State.initial (.ofList [("blockRules", "?"), ("accessLock", "?")])
      (.holding [⟨1, "*old*"⟩])
    (((refresh c).run silent s).1 = .error (.engine (.refused "busy")) ∧
      ((refresh c).run silent s).2.engine = s.engine) ∧
    (((refresh c).run full s).1 = .error (.store (.io .busy)) ∧
      ((refresh c).run full s).2.engine = .holding [⟨1, "*ads*"⟩] ∧
      ((refresh c).run full s).2.store.get? "accessLock" = some "?") := by
  intro c env silent full s
  have hdoc : PolicyDocument.ofText "urls: [url: '*ads*']" =
      .ok ⟨false, none, .absent, [⟨some "*ads*", .absent⟩]⟩ := by decide +kernel
  have hurl (env : Surroundings) :
      ((policyUrl c).run env s).1 = .ok (some "https://policy.example") := rfl
  obtain ⟨hrefused, -⟩ := refresh_all_or_nothing c silent s (hurl silent) rfl hdoc
  obtain ⟨-, haccepted⟩ := refresh_all_or_nothing c full s (hurl full) rfl hdoc
  obtain ⟨hanswer, hengine, -⟩ := hrefused (.refused "busy") rfl
  obtain ⟨hfault, -, hholding, -, -, -, hlock, -⟩ := haccepted (.holding [⟨1, "*ads*"⟩]) rfl
  exact ⟨⟨hanswer, hengine⟩, hfault, hholding (by decide), hlock⟩

end NavPolicy.Agent
