import NavPolicy.Proofs.Agent.Sharing

/-!
# Removing the policy URL beside refreshes

A removal does not wait for a refresh that is under way.  It erases the policy URL and then the lock, and
the refresh goes on with the URL that it has read before.

What stands under a key is what the last step on that key has left there (`get?_afterTurns`).  No refresh
stores a policy URL, so that one stays erased.  A refresh does store a lock: once it has fetched a policy
it follows a protocol in which the lock of that policy is written and nothing else is (`LockStep`).  So the
lock stays erased as long as no refresh comes to that write after the removal, and otherwise the lock of
the fetched policy stands in the end (`removal_beside_jobs`); `lock_outlives_removal` is such a run.
-/

namespace NavPolicy.Agent

open Program (perform notes)

/-! ## What steps leave under a key -/

/-- What a step leaves under a key, if it sets or erases what stands there. -/
def Step.put? (key : String) (st : Step) : Option (Option String) :=
  match st.action with
  | .write k text => if k = key ∧ st.env.writeFault k = none then some (some text) else none
  | .erase k => if k = key ∧ st.env.writeFault k = none then some none else none
  | _ => none

/-- After a step there is under a key what the step leaves there, or what was there before. -/
theorem Step.get?_after (st : Step) (key : String) :
    st.after.store.get? key = (st.put? key).getD (st.state.store.get? key) := by
  obtain ⟨env, place, s, a⟩ := st
  have hkeeps (ha : a.KeepsStore) (hput : Step.put? key ⟨env, place, s, a⟩ = none) :
      (a.answer env s).2.store.get? key =
        (Step.put? key ⟨env, place, s, a⟩).getD (s.store.get? key) := by
    rw [hput, ha.store_answer, Option.getD_none]
  cases a with
  | write k text =>
    rw [Step.after, Action.answer, Step.put?]
    cases hfault : env.writeFault k with
    | some e => simp [hfault, State.attempt]
    | none =>
      show (s.store.set k text).get? key = _
      rw [Store.get?_set]
      by_cases hk : k = key
      · subst hk
        simp [hfault]
      · simp [hk, Ne.symm hk]
  | erase k =>
    rw [Step.after, Action.answer, Step.put?]
    cases hfault : env.writeFault k with
    | some e => simp [hfault, State.attempt]
    | none =>
      show (s.store.erase k).get? key = _
      rw [Store.get?_erase]
      by_cases hk : k = key
      · subst hk
        simp [hfault]
      · simp [hk, Ne.symm hk]
  | _ => exact hkeeps trivial rfl

/-- What stands under a key after turns is what the last step on it has left there, or what stood there at
first. -/
theorem Interleaving.get?_afterTurns {α : Type} (m : Interleaving α) (ts : List Turn) (key : String) :
    (m.afterTurns ts).state.store.get? key =
      ((m.steps ts).filterMap (Step.put? key)).getLast?.getD (m.state.store.get? key) := by
  induction ts generalizing m with
  | nil => rfl
  | cons t ts ih =>
    have hrest : (m.afterTurns (t :: ts)).state.store.get? key = _ := ih (m.turn t.env t.place)
    rw [hrest, steps, List.filterMap_append, List.getLast?_append]
    cases hstep : m.step? t with
    | none =>
      have hturn : m.turn t.env t.place = m := by
        rcases m.turn_cases t with ⟨-, hturn⟩ | ⟨a, next, -, -, hsome, -⟩
        · exact hturn
        · exact absurd (hstep.symm.trans hsome) (by simp)
      rw [hturn]
      simp
    | some st =>
      obtain ⟨hafter, hstate, -, -⟩ := state_turn_of_step? hstep
      rw [hafter, Step.get?_after, hstate]
      cases hput : st.put? key with
      | none => simp [hput]
      | some text =>
        rw [Option.toList_some, List.filterMap_cons_some hput, List.filterMap_nil,
          List.getLast?_singleton]
        cases ((m.turn t.env t.place).steps ts |>.filterMap (Step.put? key)).getLast? <;> rfl

/-! ## What refreshes store -/

namespace Action

/-- Whether an action leaves the stored policy URL and the stored lock alone. -/
def SparesSource : Action → Prop
  | write key _ | erase key => key ≠ Cell.policyUrl.key ∧ key ≠ Cell.accessLock.key
  | _ => True

/-- An action that keeps a record leaves policy URL and lock alone. -/
theorem Records.sparesSource {a : Action} (h : a.Records) : a.SparesSource := by
  have hne {key : String} (hkey : key ∈ recordKeys) :
      key ≠ Cell.policyUrl.key ∧ key ≠ Cell.accessLock.key := by
    constructor
    · rintro rfl
      exact absurd hkey (by decide)
    · rintro rfl
      exact absurd hkey (by decide)
  cases a with
  | write key text => exact hne h
  | erase key => exact hne h
  | _ => trivial

end Action

/-- The document that a policy source answers with, if it is one. -/
def documentOf? : Except SourceError String → Option PolicyDocument
  | .error _ => none
  | .ok text => (PolicyDocument.ofText text).toOption

/-- The protocol of the lock: policy URL and lock are left alone until a document is fetched, and from
then on its lock may be stored. -/
inductive LockStep : Protocol (Option PolicyDocument)
  | spare {doc? : Option PolicyDocument} {a : Action} (answer : a.Answer)
      (hspares : a.SparesSource) : LockStep doc? a answer doc?
  | fetch {url : String} (answer : Except SourceError String) :
      LockStep none (.fetch url) answer (documentOf? answer)
  | store {doc : PolicyDocument} (answer : Except StoreError Unit) :
      LockStep (some doc) (.write Cell.accessLock.key (Cell.accessLock.encode doc.accessLock)) answer
        (some doc)

section Refreshes

variable {α : Type} {p : Program α} {doc? : Option PolicyDocument}

/-- What leaves policy URL and lock alone follows the protocol. -/
theorem follows_of_sparesSource (hp : p.All Action.SparesSource) :
    p.Follows LockStep doc? fun _ st => st = doc? :=
  .of_all hp fun _ ha answer => .spare answer ha

theorem sparesSource_of_records (hp : p.All Action.Records) : p.All Action.SparesSource :=
  hp.mono fun _ => Action.Records.sparesSource

theorem sparesSource_setMatcher (m : Matcher) : (setMatcher m).All Action.SparesSource :=
  all_setMatcher trivial (fun _ => trivial) trivial m

theorem sparesSource_writeBlockRules (rules : List BlockRule) :
    (writeCell .blockRules rules).All Action.SparesSource :=
  .perform ⟨by decide, by decide⟩

theorem sparesSource_writeRedirectRules (rules : List RedirectRule) :
    (writeCell .redirectRules rules).All Action.SparesSource :=
  .perform ⟨by decide, by decide⟩

theorem sparesSource_failSafe (result : String) : (failSafe result).All Action.SparesSource := by
  have hresult : (noteResult result).All Action.SparesSource :=
    sparesSource_of_records (records_noteResult result)
  have hengine : clearEngine.All Action.SparesSource :=
    all_clearEngine trivial (fun _ => trivial) fun _ => trivial
  have hclear : clearRules.All Action.SparesSource :=
    all_clearRules sparesSource_setMatcher hengine (sparesSource_writeBlockRules [])
      (sparesSource_writeRedirectRules []) fun _ => trivial
  refine .bind hclear fun r => ?_
  cases r with
  | ok u => exact hresult
  | error e => exact .bind (.perform trivial) fun _ => hresult

/-- Installing a document stores no lock but its own. -/
theorem follows_lock_install (doc : PolicyDocument) :
    (install doc.compile).Follows LockStep (some doc) fun _ _ => True := by
  have hend (r : Except Error Unit) :
      (pure r : Program (Except Error Unit)).Follows LockStep (some doc) fun _ _ => True :=
    .pure trivial
  refine .bind_eq (follows_of_sparesSource (.perform trivial)) fun installed => ?_
  cases installed with
  | error e => exact hend _
  | ok installed =>
    refine .bind_eq (follows_of_sparesSource (.perform trivial)) fun updated => ?_
    cases updated with
    | error e => exact hend _
    | ok u =>
      refine .bind_eq (follows_of_sparesSource (.perform trivial)) fun _ => ?_
      refine .bind_eq (follows_of_sparesSource (sparesSource_of_records (records_notes _))) fun _ => ?_
      refine .bind_eq (follows_of_sparesSource (sparesSource_setMatcher _)) fun _ => ?_
      refine .bind_eq (follows_of_sparesSource (sparesSource_writeBlockRules _)) fun blocks => ?_
      refine .bind_eq (follows_of_sparesSource (sparesSource_writeRedirectRules _)) fun redirects => ?_
      refine .bind_eq (.perform fun answer => ⟨_, .store answer, rfl⟩) fun lock => ?_
      cases blocks <;> cases redirects <;> cases lock <;>
        first
        | exact hend _
        | exact .bind_eq (follows_of_sparesSource (.perform trivial)) fun _ => hend _

/-- A refresh from a URL stores no lock but that of the document it has fetched. -/
theorem follows_lock_refreshFrom (url : String) :
    (refreshFrom url).Follows LockStep none fun _ _ => True := by
  have hnote (n : Notice) (st : Option PolicyDocument) :
      (perform (.note n)).Follows LockStep st fun _ t => t = st :=
    follows_of_sparesSource (.perform trivial)
  have hfailSafe (result : String) (e : Error) (st : Option PolicyDocument) :
      (failSafe result >>= fun _ => pure (.error e) :
        Program (Except Error RefreshOutcome)).Follows LockStep st fun _ _ => True :=
    .bind_eq (follows_of_sparesSource (sparesSource_failSafe result)) fun _ => .pure trivial
  refine .bind_eq (follows_of_sparesSource (sparesSource_of_records records_noteAttempt)) fun _ => ?_
  refine .bind (Q := fun answer st => st = documentOf? answer)
    (.perform fun answer => ⟨_, .fetch answer, rfl⟩) fun answer st hst => ?_
  subst hst
  cases answer with
  | error e => exact .bind_eq (hnote _ _) fun _ => hfailSafe _ _ _
  | ok text =>
    refine .bind_eq (follows_of_sparesSource (sparesSource_of_records records_noteSuccess)) fun _ => ?_
    rw [documentOf?]
    cases PolicyDocument.ofText text with
    | error e => exact .bind_eq (hnote _ _) fun _ => hfailSafe _ _ _
    | ok doc =>
      obtain ⟨ns, heq⟩ := exists_installDocument_eq doc
      dsimp only [Except.toOption]
      rw [heq]
      refine .bind_eq (follows_of_sparesSource (sparesSource_of_records (records_notes ns))) fun _ => ?_
      exact (follows_lock_install doc).bind fun _ _ _ => .pure trivial

/-- A refresh stores no lock but that of the document it has fetched. -/
theorem follows_lock_refresh (c : Config) : (refresh c).Follows LockStep none fun _ _ => True := by
  have hend (outcome : Except Error RefreshOutcome) (st : Option PolicyDocument) :
      (perform (.release .refresh) >>= fun _ => pure outcome).Follows LockStep st fun _ _ => True :=
    .bind_eq (follows_of_sparesSource (.perform trivial)) fun _ => .pure trivial
  have hurl : (policyUrl c).All Action.SparesSource :=
    (reads_policyUrl c).mono fun _ => Action.Reads.of fun _ => trivial
  refine .bind_eq (follows_of_sparesSource (.perform trivial)) fun _ => ?_
  refine .bind_eq (follows_of_sparesSource hurl) fun url => ?_
  cases url with
  | error e => exact .bind (follows_of_sparesSource (.pure _)) fun _ _ _ => hend _ _
  | ok url =>
    cases url with
    | none =>
      have hnothing : refreshNothing.All Action.SparesSource := by
        refine .bind (sparesSource_of_records records_noteAttempt) fun _ => ?_
        refine .bind (sparesSource_of_records (records_noteResult _)) fun _ => ?_
        exact .bind (.perform trivial) fun _ => .pure _
      exact .bind (follows_of_sparesSource hnothing) fun _ _ _ => hend _ _
    | some url => exact (follows_lock_refreshFrom url).bind fun _ _ _ => hend _ _

end Refreshes

/-- Every job stores no lock but that of a document it has fetched. -/
theorem follows_lock_job (c : Config) (job : Job) :
    (job.program c).Follows LockStep none fun _ _ => True := by
  cases job with
  | refresh => exact (follows_lock_refresh c).bind fun _ _ _ => .pure trivial
  | navigation n =>
    have hspares : (navigate c n).All Action.SparesSource :=
      (keepsStore_navigate c n).mono fun a ha => by cases a <;> first | exact trivial | exact ha.elim
    exact (follows_of_sparesSource hspares).bind fun _ _ _ => .pure trivial

/-- Whether a step fetches the text of a document. -/
def Step.Fetches (doc : PolicyDocument) (st : Step) : Prop :=
  ∃ url, st.action = .fetch url ∧ st.env.document? st.state.fetched.length url = some doc

/-- Whether a step stores the lock of a document that its program fetches in one of these steps. -/
def Step.StoresFetched (sts : List Step) (doc : PolicyDocument) (st : Step) : Prop :=
  st.action = .write Cell.accessLock.key (Cell.accessLock.encode doc.accessLock) ∧
    ∃ fetching ∈ Interleaving.stepsAt st.place sts, fetching.Fetches doc

section Steps

variable {env : Surroundings} {s : State} {a : Action} {doc? doc?' : Option PolicyDocument}

/-- A step of the protocol leaves policy URL and lock alone and fetches no document, or fetches one, or
stores the lock of the one that was fetched. -/
theorem lockStep_cases (h : LockStep doc? a (a.answer env s).1 doc?') :
    (a.SparesSource ∧ doc?' = doc?) ∨
      (∃ url, a = .fetch url ∧ doc?' = env.document? s.fetched.length url) ∨
      ∃ doc, doc? = some doc ∧ doc?' = some doc ∧
        a = .write Cell.accessLock.key (Cell.accessLock.encode doc.accessLock) := by
  generalize hanswer : (a.answer env s).1 = answer at h
  cases h with
  | spare answer hspares => exact .inl ⟨hspares, rfl⟩
  | @fetch url answer =>
    subst hanswer
    refine .inr (.inl ⟨url, rfl, ?_⟩)
    rw [Action.answer, Surroundings.document?]
    cases env.source s.fetched.length url <;> rfl
  | store answer => exact .inr (.inr ⟨_, rfl, rfl, rfl⟩)

/-- Each step of a program that follows the protocol leaves policy URL and lock alone, or stores the lock
of a document that was fetched before or is fetched by one of the steps. -/
theorem stored_of_comes {α : Type} {p q : Program α} {sts : List Step}
    {Q : α → Option PolicyDocument → Prop} (hp : p.Follows LockStep doc? Q) (h : p.Comes sts q)
    {st : Step} (hst : st ∈ sts) :
    st.action.SparesSource ∨ ∃ doc,
      st.action = .write Cell.accessLock.key (Cell.accessLock.encode doc.accessLock) ∧
        (doc? = some doc ∨ ∃ fetching ∈ sts, fetching.Fetches doc) := by
  induction h generalizing doc? with
  | nil p => exact absurd hst List.not_mem_nil
  | @cons a next env place s sts q h ih =>
    obtain ⟨doc?', hstep, hnext⟩ := hp (a.answer env s).1
    rcases List.mem_cons.1 hst with rfl | hst
    · rcases lockStep_cases hstep with ⟨hspares, -⟩ | ⟨url, rfl, -⟩ | ⟨doc, hdoc, -, rfl⟩
      · exact .inl hspares
      · exact .inl trivial
      · exact .inr ⟨doc, rfl, .inl hdoc⟩
    · rcases ih hnext hst with hspares | ⟨doc, hstore, hknown | ⟨fetching, hfetching, hfetches⟩⟩
      · exact .inl hspares
      · refine .inr ⟨doc, hstore, ?_⟩
        -- the document known after the first step was known before, or is fetched by it
        rcases lockStep_cases hstep with ⟨-, hsame⟩ | ⟨url, rfl, hfetched⟩ | ⟨doc', hdoc, hsame, -⟩
        · exact .inl (hsame.symm.trans hknown)
        · exact .inr ⟨_, List.mem_cons_self, url, rfl, hfetched.symm.trans hknown⟩
        · exact .inl (hdoc.trans (hsame.symm.trans hknown))
      · exact .inr ⟨doc, hstore, .inr ⟨fetching, List.mem_cons_of_mem _ hfetching, hfetches⟩⟩

end Steps

/-! ## Removals -/

/-- A removal that is done has erased the policy URL and then the lock, after reads and before a notice. -/
theorem comes_removePolicyUrl {c : Config} {session : Session} {sts : List Step}
    (h : (removePolicyUrl c session).Comes sts (.done (.ok ()))) :
    ∃ pre url lock last, sts = pre ++ [url, lock, last] ∧
      (url.action = .erase Cell.policyUrl.key ∧ url.put? Cell.policyUrl.key = some none) ∧
      (lock.action = .erase Cell.accessLock.key ∧ lock.put? Cell.accessLock.key = some none) ∧
      last.action.SparesSource := by
  obtain ⟨leave, pre, sts₁, rfl, -, hleave⟩ := h.bind_inv
  cases leave with
  | error e =>
    obtain ⟨-, hdone⟩ := hleave.done_inv
    exact absurd (Program.done.inj hdone) (by simp)
  | ok u =>
    obtain ⟨env₁, place₁, s₁, sts₂, rfl, hurl⟩ := hleave.perform_bind_inv
    cases hfault₁ : env₁.writeFault Cell.policyUrl.key with
    | some e =>
      rw [Action.answer, hfault₁] at hurl
      obtain ⟨-, hdone⟩ := hurl.done_inv
      exact absurd (Program.done.inj hdone) (by simp)
    | none =>
      rw [Action.answer, hfault₁] at hurl
      obtain ⟨env₂, place₂, s₂, sts₃, rfl, hlock⟩ := hurl.perform_bind_inv
      cases hfault₂ : env₂.writeFault Cell.accessLock.key with
      | some e =>
        rw [Action.answer, hfault₂] at hlock
        obtain ⟨-, hdone⟩ := hlock.done_inv
        exact absurd (Program.done.inj hdone) (by simp)
      | none =>
        rw [Action.answer, hfault₂] at hlock
        obtain ⟨env₃, place₃, s₃, sts₄, rfl, hlast⟩ := hlock.perform_bind_inv
        obtain ⟨rfl, -⟩ := hlast.done_inv
        exact ⟨pre, _, _, _, rfl, ⟨rfl, if_pos ⟨rfl, hfault₁⟩⟩, ⟨rfl, if_pos ⟨rfl, hfault₂⟩⟩, trivial⟩

namespace Interleaving

variable {α : Type} {m : Interleaving α} {ts : List Turn}

/-- What stands under a key after turns, seen from a step on the key. -/
theorem get?_afterTurns_of_put? {key : String} {pre post : List Step} {st : Step}
    {text : Option String} (hsteps : m.steps ts = pre ++ st :: post)
    (hput : st.put? key = some text) : (m.afterTurns ts).state.store.get? key =
      (post.filterMap (Step.put? key)).getLast?.getD text := by
  rw [get?_afterTurns, hsteps, List.filterMap_append, List.filterMap_cons_some hput,
    List.getLast?_append, List.getLast?_cons]
  rfl

end Interleaving

/-- What leaves policy URL and lock alone puts nothing under their keys. -/
theorem Step.put?_of_sparesSource {st : Step} (h : st.action.SparesSource) :
    st.put? Cell.policyUrl.key = none ∧ st.put? Cell.accessLock.key = none := by
  obtain ⟨env, place, s, a⟩ := st
  cases a with
  | write key text => exact ⟨if_neg fun hkey => h.1 hkey.1, if_neg fun hkey => h.2 hkey.1⟩
  | erase key => exact ⟨if_neg fun hkey => h.1 hkey.1, if_neg fun hkey => h.2 hkey.1⟩
  | _ => exact ⟨rfl, rfl⟩

/-- What stores the lock of a fetched document puts that under the key of the lock, and nothing under the
key of the policy URL. -/
theorem Step.StoresFetched.put? {st : Step} {sts : List Step} {doc : PolicyDocument}
    (h : st.StoresFetched sts doc) : st.put? Cell.policyUrl.key = none ∧
      ∀ text, st.put? Cell.accessLock.key = some text →
        text = some (Cell.accessLock.encode doc.accessLock) := by
  obtain ⟨env, place, s, a⟩ := st
  obtain ⟨rfl, -⟩ := h
  have hne : Cell.accessLock.key ≠ Cell.policyUrl.key := by decide
  dsimp only [Step.put?]
  refine ⟨if_neg fun hkey => hne hkey.1, fun text htext => ?_⟩
  split at htext
  · exact (Option.some.inj htext).symm
  · exact absurd htext (by simp)

/-! ## Removals beside jobs -/

/-- A removal of the policy URL, at the first place, and jobs beside it. -/
def besideRemoval (c : Config) (session : Session) (s : State) (jobs : List Job) :
    Interleaving Answer :=
  .ofPrograms s ((do return .edited (← removePolicyUrl c session)) :: jobs.map (Job.program c))

section Beside

variable {c : Config} {session : Session} {s : State} {jobs : List Job} {ts : List Turn}

/-- A job leaves policy URL and lock alone but for the locks of the documents it fetches. -/
theorem stored_of_job {st : Step} (hst : st ∈ (besideRemoval c session s jobs).steps ts)
    (hplace : st.place ≠ 0) :
    st.action.SparesSource ∨
      ∃ doc, st.StoresFetched ((besideRemoval c session s jobs).steps ts) doc := by
  obtain ⟨p, hp⟩ := Interleaving.exists_program_of_mem_steps hst
  obtain ⟨i, hi⟩ := Nat.exists_eq_succ_of_ne_zero hplace
  have hjob : ∃ job, Job.program c job = p := by
    rw [hi] at hp
    have hp' : (jobs.map (Job.program c))[i]? = some p := hp
    rw [List.getElem?_map, Option.map_eq_some_iff] at hp'
    obtain ⟨job, -, hjob⟩ := hp'
    exact ⟨job, hjob⟩
  obtain ⟨job, rfl⟩ := hjob
  obtain ⟨q, -, hcomes⟩ := Interleaving.comes_of_afterTurns ts hp
  have hown : st ∈ Interleaving.stepsAt st.place ((besideRemoval c session s jobs).steps ts) :=
    List.mem_filter.2 ⟨hst, decide_eq_true rfl⟩
  rcases stored_of_comes (follows_lock_job c job) hcomes hown with hspares | ⟨doc, hstore, hfetched⟩
  · exact .inl hspares
  · exact .inr ⟨doc, hstore, hfetched.resolve_left (by simp)⟩

/-- A step that comes after another is one of the removal, or one of a job and leaves policy URL and lock
alone but for the locks of the documents it fetches. -/
theorem later_cases {before later : List Step} {cut st : Step}
    (hsteps : (besideRemoval c session s jobs).steps ts = before ++ cut :: later)
    (hst : st ∈ later) :
    st ∈ Interleaving.stepsAt 0 later ∨ st.place ≠ 0 ∧ (st.action.SparesSource ∨
      ∃ doc, st.StoresFetched ((besideRemoval c session s jobs).steps ts) doc) := by
  by_cases hplace : st.place = 0
  · exact .inl (List.mem_filter.2 ⟨hst, decide_eq_true hplace⟩)
  · refine .inr ⟨hplace, stored_of_job ?_ hplace⟩
    rw [hsteps]
    exact List.mem_append_right _ (List.mem_cons_of_mem _ hst)

/-- A removal that is done has erased policy URL and lock among the steps of all. -/
theorem exists_erasures
    (h : ((besideRemoval c session s jobs).afterTurns ts).values[0]? =
      some (some (.edited (.ok ())))) :
    ∃ pre url lock last,
      Interleaving.stepsAt 0 ((besideRemoval c session s jobs).steps ts) = pre ++ [url, lock, last] ∧
      (url.action = .erase Cell.policyUrl.key ∧ url.put? Cell.policyUrl.key = some none) ∧
      (lock.action = .erase Cell.accessLock.key ∧ lock.put? Cell.accessLock.key = some none) ∧
      last.action.SparesSource := by
  have hp : (besideRemoval c session s jobs).programs[0]? = some _ := rfl
  obtain ⟨q, hq, hcomes⟩ := Interleaving.comes_of_afterTurns ts hp
  have hdone : q = .done (.edited (.ok ())) := by
    rw [Interleaving.values, List.getElem?_map, hq, Option.map_some] at h
    cases q with
    | done y => exact congrArg Program.done (Option.some.inj (Option.some.inj h))
    | ask a next => exact absurd (Option.some.inj h) (by simp [Program.value?])
  subst hdone
  obtain ⟨r, sts, post, hown, hremoval, hanswer⟩ := hcomes.bind_inv
  obtain ⟨rfl, hr⟩ := hanswer.done_inv
  obtain rfl : .ok () = r := Answer.edited.inj (Program.done.inj hr)
  rw [hown, List.append_nil]
  exact comes_removePolicyUrl hremoval

/-- However a removal of the policy URL takes turns with refreshes and navigations, and whatever fails on
the way: once it is answered as done there is no policy URL.  The lock is gone as well unless a job has
stored one after the removal has erased it; then the lock of a document that this job has fetched stands
there. -/
theorem removal_beside_jobs (c : Config) (session : Session) (s : State) (jobs : List Job)
    (ts : List Turn) :
    let m := besideRemoval c session s jobs
    let after := (m.afterTurns ts).state.store
    (m.afterTurns ts).values[0]? = some (some (.edited (.ok ()))) →
    after.get? Cell.policyUrl.key = none ∧
      ∃ before erasure later, m.steps ts = before ++ erasure :: later ∧
        erasure.place = 0 ∧ erasure.action = .erase Cell.accessLock.key ∧
        ((∀ st ∈ later, st.put? Cell.accessLock.key = none) ∧
            after.get? Cell.accessLock.key = none ∨
          ∃ st ∈ later, ∃ doc, st.place ≠ 0 ∧ st.StoresFetched (m.steps ts) doc ∧
            after.get? Cell.accessLock.key =
              some (Cell.accessLock.encode doc.accessLock)) := by
  intro m after hvalue
  obtain ⟨pre, url, lock, last, hown, ⟨hurl, hurlput⟩, ⟨hlock, hlockput⟩, hlast⟩ :=
    exists_erasures hvalue
  refine ⟨?_, ?_⟩
  · obtain ⟨-, before, later, hsteps, -, hlater⟩ := Interleaving.exists_cut_of_stepsAt hown
    -- after the policy URL was erased only the lock is erased and stored
    have hnone : later.filterMap (Step.put? Cell.policyUrl.key) = [] := by
      refine List.filterMap_eq_nil_iff.2 fun st hst => ?_
      rcases later_cases hsteps hst with hown | ⟨-, hspares | ⟨doc, hstores⟩⟩
      · rcases List.mem_pair.1 (hlater ▸ hown) with rfl | rfl
        · rw [Step.put?, hlock]
          exact if_neg fun hkey => absurd hkey.1 (by decide)
        · exact (Step.put?_of_sparesSource hlast).1
      · exact (Step.put?_of_sparesSource hspares).1
      · exact hstores.put?.1
    show (m.afterTurns ts).state.store.get? Cell.policyUrl.key = none
    rw [Interleaving.get?_afterTurns_of_put? hsteps hurlput, hnone]
    rfl
  · have hown' : Interleaving.stepsAt 0 (m.steps ts) = (pre ++ [url]) ++ lock :: [last] := by
      rw [hown, List.append_assoc]
      rfl
    obtain ⟨hplace, before, later, hsteps, -, hlater⟩ := Interleaving.exists_cut_of_stepsAt hown'
    refine ⟨before, lock, later, hsteps, hplace, hlock, ?_⟩
    have hafter : after.get? Cell.accessLock.key = _ :=
      Interleaving.get?_afterTurns_of_put? hsteps hlockput
    rw [hafter]
    cases hput : (later.filterMap (Step.put? Cell.accessLock.key)).getLast? with
    | none =>
      rw [List.getLast?_eq_none_iff, List.filterMap_eq_nil_iff] at hput
      exact .inl ⟨hput, rfl⟩
    | some text =>
      -- the last step on the lock is one of a job, since the removal is done with it
      obtain ⟨st, hst, hstput⟩ := List.mem_filterMap.1 (List.mem_of_getLast? hput)
      rcases later_cases hsteps hst with hown | ⟨hjob, hspares | ⟨doc, hstores⟩⟩
      · obtain rfl := List.mem_singleton.1 (hlater ▸ hown)
        exact absurd hstput (by simp [(Step.put?_of_sparesSource hlast).2])
      · exact absurd hstput (by simp [(Step.put?_of_sparesSource hspares).2])
      · exact .inr ⟨st, hst, doc, hjob, hstores, hstores.put?.2 text hstput⟩

end Beside

deriving instance DecidableEq for Answer

/-- A refresh that has read the policy URL before a removal begins, and stores a lock after the removal has erased
the policy URL: the removal erases the lock as well, since it comes to that last. -/
theorem removal_beside_jobs_interleaved :
    let digest := "2bb80d537b1da3e38bd30361aa855686bde0eacd7162fef6a25fe97bf527a25b"
    let env : Surroundings :=
      { Surroundings.offline "no route" ⟨0, 0⟩ with
        source := fun _ _ => .ok s!"lock: true\nauthn: {digest}\n" }
    let s := State.initial (.ofList [("configUrl", "\"https://policy.example\"")]) .empty
    let m := besideRemoval .default .fresh s [.refresh]
    let refreshed := ([1, 1, 0, 0] ++ List.replicate 40 1).map (Turn.mk env)
    let ts := refreshed ++ [0, 0].map (Turn.mk env)
    let after := (m.afterTurns ts).state.store
    (m.afterTurns refreshed).state.store.get? Cell.accessLock.key =
        some (Cell.accessLock.encode (.locked digest)) ∧
      (m.afterTurns ts).values =
        [some (.edited (.ok ())), some (.refreshed (.ok (.applied ⟨0, 0, 0, 0⟩)))] ∧
      after.get? Cell.policyUrl.key = none ∧ after.get? Cell.accessLock.key = none := by
  intro digest env s m refreshed ts after
  have hvalues : (m.afterTurns ts).values =
      [some (.edited (.ok ())), some (.refreshed (.ok (.applied ⟨0, 0, 0, 0⟩)))] := by
    decide +kernel
  -- behind the step that erases the lock there is none of the refresh
  have hlast : (m.steps ts).Pairwise fun x y =>
      x.action = .erase Cell.accessLock.key → y.place = 0 := by
    decide +kernel
  have hremoval := removal_beside_jobs .default .fresh s [.refresh] ts
  rw [show besideRemoval .default .fresh s [.refresh] = m from rfl] at hremoval
  obtain ⟨hurl, before, erasure, later, hsteps, -, herase, hlock⟩ :=
    hremoval (congrArg (fun values => values[0]?) hvalues)
  refine ⟨by decide +kernel, hvalues, hurl, ?_⟩
  rcases hlock with ⟨-, hnone⟩ | ⟨st, hst, doc, hplace, -⟩
  · exact hnone
  · rw [hsteps] at hlast
    have hlater := (List.pairwise_cons.1 (List.pairwise_append.1 hlast).2.1).1
    exact absurd (hlater st hst herase) hplace

/-- A refresh that has read the policy URL before a removal begins, and fetches a locked policy only after
it, leaves the options locked without a policy URL. -/
theorem lock_outlives_removal :
    let digest := "2bb80d537b1da3e38bd30361aa855686bde0eacd7162fef6a25fe97bf527a25b"
    let env : Surroundings :=
      { Surroundings.offline "no route" ⟨0, 0⟩ with
        source := fun _ _ => .ok s!"lock: true\nauthn: {digest}\n" }
    let s := State.initial (.ofList [("configUrl", "\"https://policy.example\"")]) .empty
    let start := besideRemoval .default .fresh s [.refresh]
    let reading := List.replicate 2 1
    let ended := (start.turns env reading).turns env (List.replicate 4 0 ++ List.replicate 40 1)
    (start.steps (reading.map (Turn.mk env))).map Step.action =
        [.acquire .refresh, .read "configUrl"] ∧
      ended.values =
        [some (.edited (.ok ())), some (.refreshed (.ok (.applied ⟨0, 0, 0, 0⟩)))] ∧
      ended.state.store.get? "configUrl" = none ∧
      ended.state.store.get? "accessLock" = some (Cell.accessLock.encode (.locked digest)) ∧
      ((ensureEditable .default .fresh).run env ended.state).1 = .error .locked := by
  decide +kernel

end NavPolicy.Agent
