import NavPolicy.Proofs.Agent.Calls
import NavPolicy.Proofs.Agent.Editing
import NavPolicy.Proofs.Agent.Install

/-!
# Who may change the policy source

Over any run of calls, by any number of sessions and whatever fails on the way, the policy URL and the
lock change only by leave.  A session that may change them under a stored lock has presented the password
of a lock that was stored then (`presented_of_isUnlocked`): locks come and go between the two, but the
session remembers.
-/

namespace NavPolicy.Agent

/-- The session that asks for a change of the policy URL, if that is what is asked. -/
def Request.editor? : Request → Option Nat
  | .setPolicyUrl i _ => some i
  | .removePolicyUrl i => some i
  | _ => none

/-- The error that an answer tells, if it tells one. -/
def Answer.error? : Answer → Option Error
  | refreshed (.error e) => some e
  | navigated (.error e) => some e
  | told (.error e) => some e
  | verified (.error e) => some e
  | unlocked (.error e) => some e
  | edited (.error e) => some e
  | _ => none

namespace World

variable (c : Config)

/-- Whether a session has, in one of the calls, presented the password of the lock that was stored at
that time. -/
def Presented (w : World) (ks : List Call) (i : Nat) : Prop :=
  ∃ earlier k later password lock, ks = earlier ++ k :: later ∧
    k.request = .unlock i password ∧ password ≠ "" ∧
    (w.after c earlier).state.lock k.env = .ok lock ∧
    lock.digest = some (Digest.ofText password)

end World

variable {c : Config} {env : Surroundings} {s : State} {w : World} {k : Call}

/-! ## Sessions -/

/-- Presenting a password gives the session what the stored lock makes of it, if that can be read. -/
theorem session_unlock (session : Session) (password : String) :
    ((unlock session password).run env s).1.2 =
      match s.lock env with
      | .error _ => session
      | .ok lock => session.unlock password lock := by
  rw [unlock, Program.run_bind, State.lock]
  cases (storedLock.run env s).1 with
  | error e => rfl
  | ok lock =>
    dsimp only
    split
    · rfl
    · rfl

/-- A session is unlocked by the password of the stored lock, or was unlocked before. -/
theorem isUnlocked_unlock {session : Session} {password : String}
    (h : ((unlock session password).run env s).1.2.isUnlocked = true) :
    session.isUnlocked = true ∨ ∃ lock, s.lock env = .ok lock ∧ password ≠ "" ∧
      lock.digest = some (Digest.ofText password) := by
  rw [session_unlock] at h
  cases hlock : s.lock env with
  | error e =>
    rw [hlock] at h
    exact .inl h
  | ok lock =>
    rw [hlock] at h
    change (session.unlock password lock).isUnlocked = true at h
    rw [Session.unlock] at h
    split at h
    · next haccepts =>
      rw [AccessLock.accepts, Bool.and_eq_true, decide_eq_true_iff, decide_eq_true_iff] at haccepts
      exact .inr ⟨lock, rfl, haccepts.1, haccepts.2⟩
    · exact .inl h

/-- A call leaves every session as it is but one that presents a password. -/
theorem session_call_of_ne_unlock {i : Nat} (h : ∀ password, k.request ≠ .unlock i password) :
    (w.call c k).2.session i = w.session i := by
  rw [World.call]
  cases hrequest : k.request with
  | unlock j password =>
    refine Function.update_of_ne ?_ ..
    rintro rfl
    exact h password hrequest
  | _ => rfl

/-- A session that is unlocked after calls has presented the password of a lock stored then, unless it
was unlocked before. -/
theorem presented_of_isUnlocked {i : Nat} {ks : List Call}
    (h : ((w.after c ks).session i).isUnlocked = true) :
    (w.session i).isUnlocked = true ∨ w.Presented c ks i := by
  induction ks using List.reverseRecOn with
  | nil => exact .inl h
  | append_singleton ks k ih =>
    rw [World.after_concat] at h
    -- what was presented among the first calls was presented among all of them
    have hbefore (hunlocked : ((w.after c ks).session i).isUnlocked = true) :
        (w.session i).isUnlocked = true ∨ w.Presented c (ks ++ [k]) i := by
      rcases ih hunlocked with hw | ⟨earlier, j, later, password, lock, rfl, hrest⟩
      · exact .inl hw
      · refine .inr ⟨earlier, j, later ++ [k], password, lock, ?_, hrest⟩
        rw [List.append_assoc, List.cons_append]
    by_cases hk : ∃ password, k.request = .unlock i password
    · obtain ⟨password, hrequest⟩ := hk
      have hsession : ((w.after c ks).call c k).2.session i =
          ((unlock ((w.after c ks).session i) password).run k.env (w.after c ks).state).1.2 := by
        rw [World.call, hrequest]
        exact Function.update_self ..
      rw [hsession] at h
      rcases isUnlocked_unlock h with hunlocked | ⟨lock, hlock, hpassword, hdigest⟩
      · exact hbefore hunlocked
      · exact .inr ⟨ks, k, [], password, lock, rfl, hrequest, hpassword, hlock, hdigest⟩
    · rw [session_call_of_ne_unlock fun password hrequest => hk ⟨password, hrequest⟩] at h
      exact hbefore h

/-! ## What calls change in the store -/

/-- A call that neither refreshes nor asks for a change of the policy URL leaves the store alone. -/
theorem store_call_of_not_edit (hrefresh : k.request ≠ .refresh) (hedit : k.request.editor? = none) :
    (w.call c k).2.state.store = w.state.store := by
  have hkeeps {α : Type} {p : Program α} (hp : p.All Action.KeepsStore) :
      (p.run k.env w.state).2.store = w.state.store :=
    hp.run_eq k.env (fun _ _ ha => ha.store_answer) w.state
  have hreads {α : Type} {p : Program α} (hp : p.All Action.Reads) :
      (p.run k.env w.state).2.store = w.state.store :=
    hkeeps (hp.mono fun _ => Action.Reads.of fun _ => trivial)
  rw [World.call]
  cases hrequest : k.request with
  | refresh => exact absurd hrequest hrefresh
  | navigate n => exact hkeeps (keepsStore_navigate c n)
  | status => exact hreads (reads_status c)
  | verifyPassword password => exact hreads (reads_verifyPassword password)
  | unlock i password => exact hkeeps (keepsStore_unlock _ password)
  | setPolicyUrl i url => exact absurd hedit (by simp [hrequest, Request.editor?])
  | removePolicyUrl i => exact absurd hedit (by simp [hrequest, Request.editor?])

/-- No refresh changes the stored policy URL. -/
theorem get?_policyUrl_refresh :
    ((refresh c).run env s).2.store.get? Cell.policyUrl.key = s.store.get? Cell.policyUrl.key := by
  rcases (refreshed c s).enforcement_cases with h | ⟨url, h⟩ | ⟨url, h⟩ |
    ⟨url, text, doc, engine, -, -, -, -, h⟩
  · rw [get?_of_enforcement h, texts_enforcement]
  · rw [get?_of_enforcement h, Enforcement.texts_fetching, texts_enforcement]
  · rw [get?_of_enforcement h, Enforcement.texts_cleared_of_ne (by nofun) (by nofun),
      Enforcement.texts_fetching, texts_enforcement]
  · rw [get?_of_enforcement h, Enforcement.texts_installed_of_ne (by nofun) (by nofun) (by nofun),
      Enforcement.texts_fetching, texts_enforcement]

/-- Only a refresh whose rules the engine takes changes the stored lock. -/
theorem get?_accessLock_call_of_refresh (hrequest : k.request = .refresh) (hk : ¬ w.Installs c k) :
    (w.call c k).2.state.store.get? Cell.accessLock.key =
      w.state.store.get? Cell.accessLock.key := by
  rcases World.enforcement_call_of_not_installs hrequest hk with h | ⟨url, h⟩ | ⟨url, h⟩
  · rw [get?_of_enforcement h, texts_enforcement]
  · rw [get?_of_enforcement h, Enforcement.texts_fetching, texts_enforcement]
  · rw [get?_of_enforcement h, Enforcement.texts_cleared_of_ne (by nofun) (by nofun),
      Enforcement.texts_fetching, texts_enforcement]

/-- A change that is given no leave is answered so, and leaves the state as it is. -/
theorem call_of_not_editable {i : Nat} {e : Error} (hedit : k.request.editor? = some i)
    (he : editable c (w.session i) (w.state.lock k.env) = .error e) :
    w.call c k = (.edited (.error e), w) := by
  rw [World.call]
  cases hrequest : k.request with
  | setPolicyUrl j url =>
    obtain rfl : j = i := by simpa [hrequest, Request.editor?] using hedit
    dsimp only
    rw [run_setPolicyUrl_of_error he]
  | removePolicyUrl j =>
    obtain rfl : j = i := by simpa [hrequest, Request.editor?] using hedit
    dsimp only
    rw [run_removePolicyUrl_of_error he]
  | _ => simp [hrequest, Request.editor?] at hedit

/-- A change of the store by a session that asks for one was given leave. -/
theorem editable_of_store_ne {i : Nat} (hedit : k.request.editor? = some i)
    (hstore : (w.call c k).2.state.store ≠ w.state.store) :
    editable c (w.session i) (w.state.lock k.env) = .ok () := by
  cases h : editable c (w.session i) (w.state.lock k.env) with
  | ok u => rfl
  | error e => exact absurd (by rw [call_of_not_editable hedit h]) hstore

/-- The stored policy URL changes only through a call that asks for it. -/
theorem get?_policyUrl_call (hedit : k.request.editor? = none) :
    (w.call c k).2.state.store.get? Cell.policyUrl.key =
      w.state.store.get? Cell.policyUrl.key := by
  by_cases hrefresh : k.request = .refresh
  · rw [World.call, hrefresh]
    exact get?_policyUrl_refresh
  · rw [store_call_of_not_edit hrefresh hedit]

/-- Setting the policy URL leaves the stored lock as it is. -/
theorem get?_accessLock_setPolicyUrl (session : Session) (url : String) :
    ((setPolicyUrl c session url).run env s).2.store.get? Cell.accessLock.key =
      s.store.get? Cell.accessLock.key := by
  cases h : editable c session (s.lock env) with
  | error e => rw [run_setPolicyUrl_of_error h]
  | ok u =>
    have hrun := run_setPolicyUrl_of_ok h url
    cases hfault : env.writeFault Cell.policyUrl.key with
    | some e =>
      rw [hfault] at hrun
      rw [hrun]
    | none =>
      rw [hfault] at hrun
      rw [hrun.2, Store.get?_set, if_neg (by decide)]

/-- The stored lock changes only through a removal of the policy URL or an install. -/
theorem get?_accessLock_call (hremove : ∀ i, k.request ≠ .removePolicyUrl i)
    (hk : ¬ w.Installs c k) : (w.call c k).2.state.store.get? Cell.accessLock.key =
      w.state.store.get? Cell.accessLock.key := by
  by_cases hrefresh : k.request = .refresh
  · exact get?_accessLock_call_of_refresh hrefresh hk
  · cases hedit : k.request.editor? with
    | none => rw [store_call_of_not_edit hrefresh hedit]
    | some i =>
      cases hrequest : k.request with
      | setPolicyUrl j url =>
        rw [World.call, hrequest]
        exact get?_accessLock_setPolicyUrl _ url
      | removePolicyUrl j => exact absurd hrequest (hremove j)
      | _ => simp [hrequest, Request.editor?] at hedit

/-! ## Refusals -/

/-- A refresh never answers that a password is needed or that the policy URL is managed. -/
theorem error?_refresh {e : Error} (hrequest : k.request = .refresh)
    (h : (w.call c k).1.error? = some e) : e ≠ .managed ∧ e ≠ .locked := by
  rw [World.call, hrequest] at h
  change (Answer.refreshed ((refresh c).run k.env w.state).1).error? = some e at h
  obtain ⟨a, y, hcase, hgives⟩ := exists_refreshed k.env w.state.enforcement c
  rw [(hgives w.state rfl).1] at h
  cases hcase with
  | nothing => simp [Answer.error?] at h
  | installed =>
    rw [Surroundings.installOutcome] at h
    cases hfault : k.env.storeFault with
    | none => simp [hfault, Answer.error?, Except.map] at h
    | some e' =>
      rw [hfault] at h
      obtain rfl := Option.some.inj h
      exact ⟨by simp, by simp⟩
  | _ =>
    obtain rfl := Option.some.inj h
    exact ⟨by simp, by simp⟩

/-- A change that is given leave is answered as done or by a failure of the store. -/
theorem answer_of_editable {i : Nat} (hedit : k.request.editor? = some i)
    (hleave : editable c (w.session i) (w.state.lock k.env) = .ok ()) :
    (w.call c k).1 = .edited (.ok ()) ∨ ∃ e, (w.call c k).1 = .edited (.error (.store e)) := by
  rw [World.call]
  cases hrequest : k.request with
  | setPolicyUrl j url =>
    obtain rfl : j = i := by simpa [hrequest, Request.editor?] using hedit
    rcases answer_setPolicyUrl_of_ok hleave url with h | ⟨e, h⟩
    · exact .inl (congrArg Answer.edited h)
    · exact .inr ⟨e, congrArg Answer.edited h⟩
  | removePolicyUrl j =>
    obtain rfl : j = i := by simpa [hrequest, Request.editor?] using hedit
    rcases answer_removePolicyUrl_of_ok hleave with h | ⟨e, h⟩
    · exact .inl (congrArg Answer.edited h)
    · exact .inr ⟨e, congrArg Answer.edited h⟩
  | _ => simp [hrequest, Request.editor?] at hedit

/-- A call that is refused for want of a password or for a managed policy URL leaves the store alone. -/
theorem store_call_of_refusal {e : Error} (he : e = .managed ∨ e = .locked)
    (h : (w.call c k).1.error? = some e) : (w.call c k).2.state.store = w.state.store := by
  by_cases hrefresh : k.request = .refresh
  · obtain ⟨hmanaged, hlocked⟩ := error?_refresh hrefresh h
    exact absurd he (by simp [hmanaged, hlocked])
  · cases hedit : k.request.editor? with
    | none => exact store_call_of_not_edit hrefresh hedit
    | some i =>
      cases hleave : editable c (w.session i) (w.state.lock k.env) with
      | error e' => rw [call_of_not_editable hedit hleave]
      | ok u =>
        rcases answer_of_editable hedit hleave with hanswer | ⟨e', hanswer⟩
        · simp [hanswer, Answer.error?] at h
        · rw [hanswer] at h
          obtain rfl := Option.some.inj h
          exact absurd he (by simp)

/-- A lock that cannot be read gives no leave. -/
theorem store_call_of_lock_error {e : StoreError} (hrefresh : k.request ≠ .refresh)
    (he : w.state.lock k.env = .error e) : (w.call c k).2.state.store = w.state.store := by
  cases hedit : k.request.editor? with
  | none => exact store_call_of_not_edit hrefresh hedit
  | some i =>
    cases hleave : editable c (w.session i) (w.state.lock k.env) with
    | error e' => rw [call_of_not_editable hedit hleave]
    | ok u =>
      obtain ⟨-, lock, hlock, -⟩ := editable_eq_ok_iff.1 hleave
      exact absurd (he.symm.trans hlock) (by simp)

/-- Over every run from fresh sessions, whoever calls and whatever fails: the policy URL changes only
when that is asked, the lock only then or by an install; a session that changes the store is not held
back by a managed URL and has passed a lock that could be read, by its status or by a password presented
before; and a call that is refused, or cannot read the lock, leaves the store alone. -/
theorem store_guarded (c : Config) (s : State) (before : List Call) (k : Call) :
    let w := (World.fresh s).after c before
    let w' := (w.call c k).2
    (w'.state.store.get? Cell.policyUrl.key ≠ w.state.store.get? Cell.policyUrl.key →
        ∃ i, k.request.editor? = some i) ∧
      (w'.state.store.get? Cell.accessLock.key ≠ w.state.store.get? Cell.accessLock.key →
        (∃ i, k.request = .removePolicyUrl i) ∨ w.Installs c k) ∧
      (∀ i, k.request.editor? = some i → w'.state.store ≠ w.state.store →
        (∀ url, c.managedPolicyUrl = some url → url = "") ∧
          ∃ lock, w.state.lock k.env = .ok lock ∧
            (lock.status = .unlocked ∨ (World.fresh s).Presented c before i)) ∧
      ((w.call c k).1.error? = some .managed ∨ (w.call c k).1.error? = some .locked ∨
          (k.request ≠ .refresh ∧ ∃ e, w.state.lock k.env = .error e) →
        w'.state.store = w.state.store) := by
  intro w w'
  refine ⟨fun hurl => ?_, fun hlock => ?_, fun i hedit hstore => ?_, fun hrefused => ?_⟩
  · rw [← Option.ne_none_iff_exists']
    exact fun hedit => hurl (get?_policyUrl_call hedit)
  · by_contra h
    rw [not_or, not_exists] at h
    exact hlock (get?_accessLock_call h.1 h.2)
  · obtain ⟨hmanaged, lock, hlock, hpass⟩ :=
      editable_eq_ok_iff.1 (editable_of_store_ne hedit hstore)
    refine ⟨fun url hurl => ?_, lock, hlock, ?_⟩
    · rw [Config.managedUrl?, hurl] at hmanaged
      simpa using hmanaged
    · rw [Session.mayEdit, Bool.or_eq_true, Bool.not_eq_true', AccessLock.isLocked,
        decide_eq_false_iff_not] at hpass
      rcases hpass with hstatus | hunlocked
      · left
        cases h : lock.status with
        | locked => exact absurd h hstatus
        | unlocked => rfl
      · right
        -- at the start of the run no session was unlocked
        exact (presented_of_isUnlocked hunlocked).resolve_left (by simp [World.fresh, Session.fresh])
  · rcases hrefused with hmanaged | hlocked | ⟨hrefresh, e, he⟩
    · exact store_call_of_refusal (.inl rfl) hmanaged
    · exact store_call_of_refusal (.inr rfl) hlocked
    · exact store_call_of_lock_error hrefresh he

end NavPolicy.Agent
