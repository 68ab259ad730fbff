import NavPolicy.Proofs.Agent.Accesses

/-!
# What refreshes enforce

`Refreshed` lists all that a refresh may come to, with what is enforced in each case, and `refreshed`
says that nothing else happens.  Failures of the store and of the engine are among the surroundings, so
each case holds under all of them.
-/

namespace NavPolicy.Agent

open Program (perform)

variable (env : Surroundings) (x : Enforcement)

/-! ## Dropping all rules -/

/-- All rules are dropped, each kind of them unless that fails. -/
def Enforcement.cleared : Enforcement :=
  (({ x with served := some .empty, engine := env.cleared x.engine }).write env .blockRules []).write
    env .redirectRules []

namespace Enforcement

variable {env x}

/-- Once all rules are dropped navigations are matched against none. -/
theorem served_cleared : (x.cleared env).served = some .empty := by
  rw [cleared, served_write, served_write]

/-- Once all rules are dropped the engine is cleared. -/
theorem engine_cleared : (x.cleared env).engine = env.cleared x.engine := by
  rw [cleared, engine_write, engine_write]

/-- Dropping all rules concerns the cells of the rules and no others. -/
theorem texts_cleared_of_ne {cell : Cell} (hblocks : cell ≠ .blockRules)
    (hredirects : cell ≠ .redirectRules) :
    (x.cleared env).texts cell.key = x.texts cell.key := by
  rw [cleared, texts_write_of_ne hredirects, texts_write_of_ne hblocks]

/-- The block rules are stored as none when all rules are dropped, unless that fails. -/
theorem texts_cleared_blockRules : (x.cleared env).texts Cell.blockRules.key =
    if env.writeFault Cell.blockRules.key = none then some (Cell.blockRules.encode [])
    else x.texts Cell.blockRules.key := by
  rw [cleared, texts_write_of_ne (by nofun), texts_write]

/-- The redirect rules are stored as none when all rules are dropped, unless that fails. -/
theorem texts_cleared_redirectRules : (x.cleared env).texts Cell.redirectRules.key =
    if env.writeFault Cell.redirectRules.key = none then some (Cell.redirectRules.encode [])
    else x.texts Cell.redirectRules.key := by
  rw [cleared, texts_write, texts_write_of_ne (by nofun)]

end Enforcement

/-- Dropping all rules takes a replacement of the shared matcher, what clears the engine, a notice, and
writes under the keys of the rules. -/
theorem all_clearRules {P : Action → Prop} (hmatcher : ∀ m, (setMatcher m).All P)
    (hengine : clearEngine.All P) (hblocks : (writeCell .blockRules []).All P)
    (hredirects : (writeCell .redirectRules []).All P) (hnote : ∀ n, P (.note n)) :
    clearRules.All P := by
  refine .bind (hmatcher .empty) fun _ => .bind hengine fun engine => .bind hblocks fun blocks => ?_
  refine .bind hredirects fun redirects => .bind (.perform (hnote _)) fun _ => ?_
  split <;> exact .pure _

/-- Dropping all rules drops them. -/
theorem leads_clearRules : clearRules.Leads env x (x.cleared env) := by
  refine .bind (gives_setMatcher env x .empty).leads fun _ => ?_
  refine .bind (leads_clearEngine env _) fun engine => ?_
  refine .bind (gives_writeCell env _ .blockRules _).leads fun blocks => ?_
  refine .bind (gives_writeCell env _ .redirectRules _).leads fun redirects => ?_
  refine .bind leads_note fun _ => ?_
  dsimp only
  split <;> exact .pure _ _

/-- The fail-safe drops all rules. -/
theorem leads_failSafe (result : String) : (failSafe result).Leads env x (x.cleared env) := by
  refine .bind (leads_clearRules env x) fun r => ?_
  cases r with
  | ok u => exact leads_noteResult
  | error e => exact .bind leads_note fun _ => leads_noteResult

/-! ## Installing -/

/-- A compiled policy is put in force with an engine that has taken its block rules, each kind of value
stored unless that fails. -/
def Enforcement.installed (p : CompiledPolicy) (engine : Engine) : Enforcement :=
  ((({ x with engine, served := some (.ofRules p.redirectRules) }).write env .blockRules
    p.blockRules).write env .redirectRules p.redirectRules).write env .accessLock p.lock

/-- The first failure to store a compiled policy. -/
def Surroundings.storeFault : Option IoError :=
  ((env.writeFault Cell.blockRules.key).or (env.writeFault Cell.redirectRules.key)).or
    (env.writeFault Cell.accessLock.key)

/-- The answer to an install that the engine takes part in. -/
def Surroundings.installOutcome : Except Error Unit :=
  match env.storeFault with
  | some e => .error (.store (.io e))
  | none => .ok ()

/-- A policy whose rules the engine refuses is not installed at all. -/
theorem gives_install_of_error {p : CompiledPolicy} {e : EngineError}
    (h : env.replaced p.blockRules x.engine = .error e) :
    (install p).Gives env x (.error (.engine e)) x := by
  have hlist := gives_listRules env x
  rw [Surroundings.replaced] at h
  cases hlisted : env.listed x.engine with
  | error e' =>
    rw [hlisted] at h hlist
    obtain rfl := Except.error.inj h
    exact .bind hlist (.pure _ x)
  | ok installed =>
    rw [hlisted] at h hlist
    exact .bind hlist (.bind (gives_update_of_error env x h) (.pure _ x))

/-- A policy whose rules the engine takes is installed, and the first failure to store it is told. -/
theorem gives_install_of_ok {p : CompiledPolicy} {engine : Engine}
    (h : env.replaced p.blockRules x.engine = .ok engine) :
    (install p).Gives env x env.installOutcome (x.installed env p engine) := by
  have hlist := gives_listRules env x
  rw [Surroundings.replaced] at h
  cases hlisted : env.listed x.engine with
  | error e =>
    rw [hlisted] at h
    exact absurd h (by simp)
  | ok installed =>
    rw [hlisted] at h hlist
    refine .bind hlist (.bind (gives_update_of_ok env x h) ?_)
    refine leads_note.bind_gives fun _ => ?_
    refine leads_notes.bind_gives fun _ => ?_
    refine .bind (gives_setMatcher env _ _) ?_
    refine .bind (gives_writeCell env _ .blockRules _) ?_
    refine .bind (gives_writeCell env _ .redirectRules _) ?_
    refine .bind (gives_writeCell env _ .accessLock _) ?_
    -- all three writes were tried; what is left is to tell the first that failed
    rw [Surroundings.installOutcome, Surroundings.storeFault]
    cases env.writeFault Cell.blockRules.key with
    | some e => exact .pure _ _
    | none =>
      cases env.writeFault Cell.redirectRules.key with
      | some e => exact .pure _ _
      | none =>
        cases env.writeFault Cell.accessLock.key with
        | some e => exact .pure _ _
        | none => exact leads_note.bind_gives fun _ => .pure _ _

/-- What comes of installing a document when the engine has its say. -/
theorem gives_installDocument {doc : PolicyDocument} {r : Except Error Unit} {y : Enforcement}
    (h : (install doc.compile).Gives env x r y) :
    (installDocument doc).Gives env x (r.map fun () => .applied doc.stats) y := by
  obtain ⟨ns, heq⟩ := exists_installDocument_eq doc
  rw [heq]
  exact leads_notes.bind_gives fun _ => h.bind (.pure _ y)

/-! ## Refreshing -/

/-- A URL is fetched. -/
def Enforcement.fetching (url : String) : Enforcement := { x with fetched := x.fetched ++ [url] }

/-- A fetch changes no text. -/
theorem Enforcement.texts_fetching (url : String) : (x.fetching url).texts = x.texts := rfl

/-- The document that a fetch gives, if it gives one, when so many were made before. -/
def Surroundings.document? (count : Nat) (url : String) : Option PolicyDocument :=
  match env.source count url with
  | .error _ => none
  | .ok text => (PolicyDocument.ofText text).toOption

/-- What a refresh may come to: its answer and what is enforced after it. -/
inductive Refreshed (c : Config) : Except Error RefreshOutcome → Enforcement → Prop
  /-- The policy URL cannot be read. -/
  | unreadable {e : StoreError} : x.policyUrl env c = .error e → Refreshed c (.error (.store e)) x
  /-- There is no policy URL. -/
  | nothing : x.policyUrl env c = .ok none → Refreshed c (.ok .noSource) x
  /-- The source gives no text. -/
  | unavailable {url : String} {e : SourceError} : x.policyUrl env c = .ok (some url) →
      env.source x.fetched.length url = .error e →
      Refreshed c (.error (.sourceUnavailable e)) ((x.fetching url).cleared env)
  /-- The text is no policy. -/
  | malformed {url text : String} {e : PolicyError} : x.policyUrl env c = .ok (some url) →
      env.source x.fetched.length url = .ok text → PolicyDocument.ofText text = .error e →
      Refreshed c (.error (.malformedDocument e)) ((x.fetching url).cleared env)
  /-- The engine refuses the rules. -/
  | refused {url text : String} {doc : PolicyDocument} {e : EngineError} :
      x.policyUrl env c = .ok (some url) → env.source x.fetched.length url = .ok text →
      PolicyDocument.ofText text = .ok doc → env.replaced doc.blockRules x.engine = .error e →
      Refreshed c (.error (.engine e)) (x.fetching url)
  /-- The engine takes the rules. -/
  | installed {url text : String} {doc : PolicyDocument} {engine : Engine} :
      x.policyUrl env c = .ok (some url) → env.source x.fetched.length url = .ok text →
      PolicyDocument.ofText text = .ok doc → env.replaced doc.blockRules x.engine = .ok engine →
      Refreshed c (env.installOutcome.map fun () => .applied doc.stats)
        ((x.fetching url).installed env doc.compile engine)

/-- A refresh leaves all as it was but for the fetch, or leaves no rules, or leaves a policy that the
engine has taken. -/
theorem Refreshed.enforcement_cases {env : Surroundings} {x y : Enforcement} {c : Config}
    {a : Except Error RefreshOutcome} (h : Refreshed env x c a y) :
    y = x ∨ (∃ url, y = x.fetching url) ∨ (∃ url, y = (x.fetching url).cleared env) ∨
      ∃ url text doc engine, x.policyUrl env c = .ok (some url) ∧
        env.source x.fetched.length url = .ok text ∧ PolicyDocument.ofText text = .ok doc ∧
        env.replaced doc.blockRules x.engine = .ok engine ∧
        y = (x.fetching url).installed env doc.compile engine := by
  cases h with
  | unreadable => exact .inl rfl
  | nothing => exact .inl rfl
  | unavailable => exact .inr (.inr (.inl ⟨_, rfl⟩))
  | malformed => exact .inr (.inr (.inl ⟨_, rfl⟩))
  | refused => exact .inr (.inl ⟨_, rfl⟩)
  | installed hurl hsource htext hreplaced =>
    exact .inr (.inr (.inr ⟨_, _, _, _, hurl, hsource, htext, hreplaced, rfl⟩))

/-- There is one policy URL in force at most. -/
theorem Enforcement.policyUrl_unique {env : Surroundings} {x : Enforcement} {c : Config}
    {url vrl : String} (h : x.policyUrl env c = .ok (some url))
    (h' : x.policyUrl env c = .ok (some vrl)) : url = vrl :=
  Option.some.inj (Except.ok.inj (h.symm.trans h'))

/-- A refresh without a policy URL leaves all as it was. -/
theorem Refreshed.enforcement_eq {env : Surroundings} {x y : Enforcement} {c : Config}
    {a : Except Error RefreshOutcome} (h : Refreshed env x c a y)
    (hurl : ∀ url, x.policyUrl env c ≠ .ok (some url)) : y = x := by
  cases h with
  | unreadable => rfl
  | nothing => rfl
  | unavailable h => exact absurd h (hurl _)
  | malformed h => exact absurd h (hurl _)
  | refused h => exact absurd h (hurl _)
  | installed h => exact absurd h (hurl _)

/-- A refresh that tells of an applied policy had the text of one, the engine took its rules, and all of
it was stored. -/
theorem Refreshed.exists_installed {env : Surroundings} {x y : Enforcement} {c : Config}
    {a : Except Error RefreshOutcome} (h : Refreshed env x c a y) {stats : CompileStats}
    (ha : a = .ok (.applied stats)) :
    ∃ url text doc engine, x.policyUrl env c = .ok (some url) ∧
      env.source x.fetched.length url = .ok text ∧ PolicyDocument.ofText text = .ok doc ∧
      env.storeFault = none ∧ y = (x.fetching url).installed env doc.compile engine := by
  cases h with
  | installed hurl hsource htext hreplaced =>
    refine ⟨_, _, _, _, hurl, hsource, htext, ?_, rfl⟩
    rw [Surroundings.installOutcome] at ha
    cases hfault : env.storeFault with
    | none => rfl
    | some e =>
      rw [hfault] at ha
      exact absurd ha (by simp [Except.map])
  | _ => exact absurd ha (by simp)

variable {env x}

section Documents

variable {count : Nat} {url text : String}

/-- A source that gives no text gives no document. -/
theorem document?_of_unavailable {e : SourceError} (h : env.source count url = .error e) :
    env.document? count url = none := by
  rw [Surroundings.document?, h]

/-- A text that is no policy is no document. -/
theorem document?_of_malformed {e : PolicyError} (h : env.source count url = .ok text)
    (htext : PolicyDocument.ofText text = .error e) : env.document? count url = none := by
  rw [Surroundings.document?, h]
  dsimp only
  rw [htext]
  rfl

/-- A text that is a policy is the document. -/
theorem document?_of_ok {doc : PolicyDocument} (h : env.source count url = .ok text)
    (htext : PolicyDocument.ofText text = .ok doc) : env.document? count url = some doc := by
  rw [Surroundings.document?, h]
  dsimp only
  rw [htext]
  rfl

end Documents

/-- A fetch is answered by the source. -/
theorem gives_fetch (url : String) :
    (perform (.fetch url)).Gives env x (env.source x.fetched.length url) (x.fetching url) := by
  intro s hs
  subst hs
  exact ⟨rfl, rfl⟩

/-- A refresh from a source that gives no text drops all rules. -/
theorem gives_refreshFrom_of_unavailable {url : String} {e : SourceError}
    (h : env.source x.fetched.length url = .error e) :
    (refreshFrom url).Gives env x (.error (.sourceUnavailable e)) ((x.fetching url).cleared env) := by
  refine leads_noteAttempt.bind_gives fun _ => ?_
  refine .bind (gives_fetch url) ?_
  rw [h]
  refine leads_note.bind_gives fun _ => ?_
  exact (leads_failSafe env _ _).bind_gives fun _ => .pure _ _

/-- A refresh from a source whose text is no policy drops all rules. -/
theorem gives_refreshFrom_of_malformed {url text : String} {e : PolicyError}
    (h : env.source x.fetched.length url = .ok text) (htext : PolicyDocument.ofText text = .error e) :
    (refreshFrom url).Gives env x (.error (.malformedDocument e)) ((x.fetching url).cleared env) := by
  refine leads_noteAttempt.bind_gives fun _ => ?_
  refine .bind (gives_fetch url) ?_
  rw [h]
  refine leads_noteSuccess.bind_gives fun _ => ?_
  rw [htext]
  refine leads_note.bind_gives fun _ => ?_
  exact (leads_failSafe env _ _).bind_gives fun _ => .pure _ _

/-- A refresh from a source whose text is a policy goes on to install it. -/
theorem gives_refreshFrom_of_document {url text : String} {doc : PolicyDocument}
    {a : Except Error RefreshOutcome} {y : Enforcement}
    (h : env.source x.fetched.length url = .ok text) (htext : PolicyDocument.ofText text = .ok doc)
    (hdoc : (installDocument doc).Gives env (x.fetching url) a y) :
    (refreshFrom url).Gives env x a y := by
  refine leads_noteAttempt.bind_gives fun _ => ?_
  refine .bind (gives_fetch url) ?_
  rw [h]
  refine leads_noteSuccess.bind_gives fun _ => ?_
  rw [htext]
  exact hdoc

/-- Every refresh from a URL comes to one of the cases. -/
theorem exists_refreshed_of_url {c : Config} {url : String} (h : x.policyUrl env c = .ok (some url)) :
    ∃ a y, Refreshed env x c a y ∧ (refreshFrom url).Gives env x a y := by
  cases hsource : env.source x.fetched.length url with
  | error e => exact ⟨_, _, .unavailable h hsource, gives_refreshFrom_of_unavailable hsource⟩
  | ok text =>
    cases htext : PolicyDocument.ofText text with
    | error e => exact ⟨_, _, .malformed h hsource htext, gives_refreshFrom_of_malformed hsource htext⟩
    | ok doc =>
      cases hreplaced : env.replaced doc.blockRules x.engine with
      | error e =>
        refine ⟨_, _, .refused h hsource htext hreplaced, ?_⟩
        refine gives_refreshFrom_of_document hsource htext ?_
        exact gives_installDocument env _ (gives_install_of_error env (x.fetching url) hreplaced)
      | ok engine =>
        refine ⟨_, _, .installed h hsource htext hreplaced, ?_⟩
        refine gives_refreshFrom_of_document hsource htext ?_
        exact gives_installDocument env _ (gives_install_of_ok env (x.fetching url) hreplaced)

/-- Without a policy URL nothing comes of a refresh. -/
theorem gives_refreshNothing : refreshNothing.Gives env x (.ok .noSource) x := by
  refine leads_noteAttempt.bind_gives fun _ => ?_
  refine leads_noteResult.bind_gives fun _ => ?_
  exact leads_note.bind_gives fun _ => .pure _ x

/-- A refresh with a policy URL does what is done from that URL. -/
theorem gives_refresh_of_url {c : Config} {url : String} {a : Except Error RefreshOutcome}
    {y : Enforcement} (h : x.policyUrl env c = .ok (some url))
    (hfrom : (refreshFrom url).Gives env x a y) : (refresh c).Gives env x a y := by
  have hurl := gives_policyUrl env x c
  rw [h] at hurl
  refine leads_acquire.bind_gives fun _ => .bind hurl (.bind hfrom ?_)
  exact leads_release.bind_gives fun _ => .pure a y

/-- Every refresh comes to one of the cases. -/
theorem exists_refreshed (env : Surroundings) (x : Enforcement) (c : Config) :
    ∃ a y, Refreshed env x c a y ∧ (refresh c).Gives env x a y := by
  have hurl := gives_policyUrl env x c
  -- what a refresh does once it has its outcome
  have hend (a : Except Error RefreshOutcome) :
      (perform (.release .refresh) >>= fun _ => pure a).Gives env x a x :=
    leads_release.bind_gives fun _ => .pure a x
  cases h : x.policyUrl env c with
  | error e =>
    rw [h] at hurl
    refine ⟨_, _, .unreadable h, leads_acquire.bind_gives fun _ => .bind hurl ?_⟩
    exact .bind (.pure _ x) (hend _)
  | ok url? =>
    rw [h] at hurl
    cases url? with
    | none =>
      refine ⟨_, _, .nothing h, leads_acquire.bind_gives fun _ => .bind hurl ?_⟩
      exact .bind gives_refreshNothing (hend _)
    | some url =>
      obtain ⟨a, y, hcase, hgives⟩ := exists_refreshed_of_url h
      exact ⟨a, y, hcase, gives_refresh_of_url h hgives⟩

/-- A run of a refresh comes to one of the cases. -/
theorem refreshed (c : Config) (s : State) :
    Refreshed env s.enforcement c ((refresh c).run env s).1 ((refresh c).run env s).2.enforcement := by
  obtain ⟨a, y, hcase, hgives⟩ := exists_refreshed env s.enforcement c
  obtain ⟨rfl, rfl⟩ := hgives s rfl
  exact hcase

end NavPolicy.Agent
