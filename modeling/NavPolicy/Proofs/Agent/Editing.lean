import NavPolicy.Proofs.Agent.Enforcement

/-!
# Changes of the policy URL

Whether a session may change the policy URL is decided by the managed URL, the stored lock and the
session alone (`editable`).  A change that is refused leaves the whole state as it is; one that is not
touches the store under the keys of the policy URL and, after it, of the lock.
-/

namespace NavPolicy.Agent

open Program (perform)

variable (env : Surroundings) (s : State)

/-- The lock that is read from the store. -/
def State.lock (env : Surroundings) (s : State) : Except StoreError AccessLock :=
  (storedLock.run env s).1

/-! ## Leave to change the policy URL -/

/-- Whether a session may change the policy URL where the lock is read so, and why not. -/
def editable (c : Config) (session : Session) (lock : Except StoreError AccessLock) :
    Except Error Unit :=
  if c.managedUrl?.isSome then .error .managed
  else
    match lock with
    | .error e => .error (.store e)
    | .ok lock => if session.mayEdit lock then .ok () else .error .locked

/-- Leave is given without a managed URL, under a lock that can be read and lets the session pass. -/
theorem editable_eq_ok_iff {c : Config} {session : Session} {lock : Except StoreError AccessLock} :
    editable c session lock = .ok () ↔
      c.managedUrl? = none ∧ ∃ l, lock = .ok l ∧ session.mayEdit l = true := by
  unfold editable
  cases c.managedUrl? with
  | some url => simp
  | none =>
    cases lock with
    | error e => simp
    | ok l =>
      by_cases h : session.mayEdit l = true
      · simp [h]
      · simp [h]

/-- Asking for leave changes nothing. -/
theorem run_ensureEditable (c : Config) (session : Session) :
    (ensureEditable c session).run env s = (editable c session (s.lock env), s) := by
  refine Prod.ext ?_ ((reads_ensureEditable c session).run_of_reads env s)
  unfold ensureEditable editable
  cases c.managedUrl? with
  | some url => rfl
  | none =>
    show ((storedLock >>= _ : Program (Except Error Unit)).run env s).1 = _
    rw [Program.run_bind, State.lock]
    cases (storedLock.run env s).1 with
    | error e => rfl
    | ok l => rfl

/-! ## The store after a change -/

section Changes

variable {env s} {c : Config} {session : Session}

/-- Setting the policy URL without leave is refused and changes nothing. -/
theorem run_setPolicyUrl_of_error {e : Error} (h : editable c session (s.lock env) = .error e)
    (url : String) : (setPolicyUrl c session url).run env s = (.error e, s) := by
  rw [setPolicyUrl, Program.run_bind, run_ensureEditable, h]
  rfl

/-- Removing the policy URL without leave is refused and changes nothing. -/
theorem run_removePolicyUrl_of_error {e : Error} (h : editable c session (s.lock env) = .error e) :
    (removePolicyUrl c session).run env s = (.error e, s) := by
  rw [removePolicyUrl, Program.run_bind, run_ensureEditable, h]
  rfl

/-- Setting the policy URL with leave sets it, unless the store refuses. -/
theorem run_setPolicyUrl_of_ok (h : editable c session (s.lock env) = .ok ()) (url : String) :
    match env.writeFault Cell.policyUrl.key with
    | some e => (setPolicyUrl c session url).run env s = (.error (.store (.io e)), s)
    | none => ((setPolicyUrl c session url).run env s).1 = .ok () ∧
        ((setPolicyUrl c session url).run env s).2.store =
          s.store.set Cell.policyUrl.key (Cell.policyUrl.encode url) := by
  rw [setPolicyUrl, Program.run_bind, run_ensureEditable, h]
  dsimp only
  rw [Program.run_bind, writeCell, Program.run_perform, Action.answer]
  cases env.writeFault Cell.policyUrl.key with
  | some e => rfl
  | none => exact ⟨rfl, rfl⟩

/-- Removing the policy URL with leave removes it and then the lock, unless the store refuses. -/
theorem run_removePolicyUrl_of_ok (h : editable c session (s.lock env) = .ok ()) :
    match env.writeFault Cell.policyUrl.key, env.writeFault Cell.accessLock.key with
    | some e, _ => (removePolicyUrl c session).run env s = (.error (.store (.io e)), s)
    | none, some e => ((removePolicyUrl c session).run env s).1 = .error (.store (.io e)) ∧
        ((removePolicyUrl c session).run env s).2.store = s.store.erase Cell.policyUrl.key
    | none, none => ((removePolicyUrl c session).run env s).1 = .ok () ∧
        ((removePolicyUrl c session).run env s).2.store =
          (s.store.erase Cell.policyUrl.key).erase Cell.accessLock.key := by
  rw [removePolicyUrl, Program.run_bind, run_ensureEditable, h]
  dsimp only
  rw [Program.run_bind, Program.run_perform, Action.answer]
  cases env.writeFault Cell.policyUrl.key with
  | some e => rfl
  | none =>
    dsimp only [State.attempt]
    rw [Program.run_bind, Program.run_perform, Action.answer]
    cases env.writeFault Cell.accessLock.key with
    | some e => exact ⟨rfl, rfl⟩
    | none => exact ⟨rfl, rfl⟩

/-- With leave, only the store can make setting the policy URL fail. -/
theorem answer_setPolicyUrl_of_ok (h : editable c session (s.lock env) = .ok ()) (url : String) :
    ((setPolicyUrl c session url).run env s).1 = .ok () ∨
      ∃ e, ((setPolicyUrl c session url).run env s).1 = .error (.store e) := by
  have hrun := run_setPolicyUrl_of_ok h url
  split at hrun
  · exact .inr ⟨_, congrArg Prod.fst hrun⟩
  · exact .inl hrun.1

/-- With leave, only the store can make removing the policy URL fail. -/
theorem answer_removePolicyUrl_of_ok (h : editable c session (s.lock env) = .ok ()) :
    ((removePolicyUrl c session).run env s).1 = .ok () ∨
      ∃ e, ((removePolicyUrl c session).run env s).1 = .error (.store e) := by
  have hrun := run_removePolicyUrl_of_ok h
  split at hrun
  · exact .inr ⟨_, congrArg Prod.fst hrun⟩
  · exact .inr ⟨_, hrun.1⟩
  · exact .inl hrun.1

end Changes

end NavPolicy.Agent
