import NavPolicy.Proofs.Agent.Editing

/-!
# The lock goes last

A removal of the policy URL erases the URL and then the lock, and each of the two may fail.  The order is
what keeps a locked policy locked: were the lock erased first, a failure or a stop between the two would
leave a policy URL that anybody may change.

`Program.moments` are the states that a run comes to, at each of which it could be stopped.  Only three
stores occur among those of a removal: the one before it, that without the policy URL, and that without URL
and lock (`erasesInOrder_of_mem_moments`).  So the lock is never gone while the URL is still there; how a
removal may end, and for what reason, is `RemovalEnds` (`removal_erases_url_first`).
-/

namespace NavPolicy.Agent

open Program (perform)

/-! ## The states that a run comes to -/

namespace Program

variable {α β : Type}

/-- The states that a run comes to, from the one it begins in to the one it ends in. -/
def moments (env : Surroundings) : Program α → State → List State
  | done _, s => [s]
  | ask a next, s => s :: (next (a.answer env s).1).moments env (a.answer env s).2

variable {env : Surroundings} {p : Program α} {f : α → Program β} {s t : State} {I : State → Prop}

/-- A run begins in one of its states. -/
theorem mem_moments_self : s ∈ p.moments env s := by
  cases p <;> exact List.mem_cons_self

/-- A run ends in one of its states. -/
theorem run_mem_moments : (p.run env s).2 ∈ p.moments env s := by
  induction p generalizing s with
  | done x => exact List.mem_cons_self
  | ask a next ih => exact List.mem_cons_of_mem _ (ih _)

/-- A composed program comes to the states of its parts. -/
theorem mem_moments_bind : t ∈ (p >>= f).moments env s ↔
    t ∈ p.moments env s ∨ t ∈ (f (p.run env s).1).moments env (p.run env s).2 := by
  induction p generalizing s with
  | done x =>
    rw [moments, List.mem_singleton]
    -- the only state of a program that does nothing is the one in which the rest begins
    exact ⟨.inr, fun h => h.elim (fun heq => heq ▸ mem_moments_self) fun h => h⟩
  | ask a next ih =>
    have hstep : t ∈ (ask a next >>= f).moments env s ↔
        t = s ∨ t ∈ (next (a.answer env s).1 >>= f).moments env (a.answer env s).2 := List.mem_cons
    rw [hstep, ih, moments, List.mem_cons, or_assoc]
    rfl

/-- What holds in the states of both parts holds in those of a composed program. -/
theorem forall_moments_bind (hp : ∀ t ∈ p.moments env s, I t)
    (hf : ∀ t ∈ (f (p.run env s).1).moments env (p.run env s).2, I t) :
    ∀ t ∈ (p >>= f).moments env s, I t :=
  fun t ht => (mem_moments_bind.1 ht).elim (hp t) (hf t)

/-- A program that does nothing stays in one state. -/
theorem forall_moments_pure {x : α} (hs : I s) : ∀ t ∈ (pure x : Program α).moments env s, I t :=
  List.forall_mem_singleton.2 hs

/-- What holds before an erasure and in what follows it, whether it fails or not, holds throughout. -/
theorem forall_moments_erase {key : String} {f : Except StoreError Unit → Program β} (hs : I s)
    (hfault : ∀ e, env.writeFault key = some e → ∀ t ∈ (f (.error (.io e))).moments env s, I t)
    (herased : env.writeFault key = none → ∀ t ∈ (f (.ok ())).moments env
      { s with store := s.store.erase key, writes := s.writes + 1 }, I t) :
    ∀ t ∈ (perform (.erase key) >>= f).moments env s, I t := by
  have hrest : ∀ t ∈ (f ((Action.erase key).answer env s).1).moments env
      ((Action.erase key).answer env s).2, I t := by
    cases h : env.writeFault key with
    | some e =>
      rw [Action.answer, h]
      exact hfault e h
    | none =>
      rw [Action.answer, h]
      exact herased h
  refine forall_moments_bind (List.forall_mem_cons.2 ⟨hs, ?_⟩) hrest
  exact List.forall_mem_singleton.2 (hrest _ mem_moments_self)

/-- A program that only reads stays in one state. -/
theorem All.eq_of_mem_moments (h : p.All Action.Reads) (ht : t ∈ p.moments env s) : t = s := by
  induction p generalizing s with
  | done x => exact List.mem_singleton.1 ht
  | ask a next ih =>
    have hlooks : a.OnlyLooks := Action.Reads.of (fun _ => trivial) h.1
    have hstays : (a.answer env s).2 = s := hlooks.answer_eq env s
    rcases List.mem_cons.1 ht with heq | ht
    · exact heq
    · exact (ih _ (h.2 _) ht).trans hstays

end Program

/-! ## The stores of a removal -/

/-- Whether nothing but the policy URL, or the policy URL and the lock, was erased from one state to
another. -/
structure ErasesInOrder (s t : State) : Prop where
  engine : t.engine = s.engine
  served : t.served = s.served
  store : t.store = s.store ∨ t.store = s.store.erase Cell.policyUrl.key ∨
    t.store = (s.store.erase Cell.policyUrl.key).erase Cell.accessLock.key

namespace ErasesInOrder

variable {s t : State}

/-- The lock is as it was, or there is no policy URL any more. -/
theorem lock_eq_or_url_eq_none (h : ErasesInOrder s t) :
    t.store.get? Cell.accessLock.key = s.store.get? Cell.accessLock.key ∨
      t.store.get? Cell.policyUrl.key = none := by
  rcases h.store with heq | heq | heq
  · exact .inl (congrArg (Store.get? · _) heq)
  · refine .inl ?_
    rw [heq, Store.get?_erase, if_neg (by decide)]
  · refine .inr ?_
    rw [heq, Store.get?_erase, if_neg (by decide), Store.get?_erase, if_pos rfl]

/-- What stands under other keys is as it was. -/
theorem get?_eq (h : ErasesInOrder s t) {key : String} (hurl : key ≠ Cell.policyUrl.key)
    (hlock : key ≠ Cell.accessLock.key) : t.store.get? key = s.store.get? key := by
  rcases h.store with heq | heq | heq
  · rw [heq]
  · rw [heq, Store.get?_erase, if_neg hurl]
  · rw [heq, Store.get?_erase, if_neg hlock, Store.get?_erase, if_neg hurl]

end ErasesInOrder

variable (env : Surroundings) (c : Config) (session : Session) (s : State)

/-- In all its states a removal has erased nothing but the policy URL, or the policy URL and the lock. -/
theorem erasesInOrder_of_mem_moments :
    ∀ t ∈ (removePolicyUrl c session).moments env s, ErasesInOrder s t := by
  have hbefore : ErasesInOrder s s := ⟨rfl, rfl, .inl rfl⟩
  refine Program.forall_moments_bind (fun t ht => ?_) ?_
  · exact (reads_ensureEditable c session).eq_of_mem_moments ht ▸ hbefore
  · rw [run_ensureEditable]
    cases editable c session (s.lock env) with
    | error e => exact Program.forall_moments_pure hbefore
    | ok u =>
      refine Program.forall_moments_erase hbefore (fun e _ => Program.forall_moments_pure hbefore)
        fun _ => ?_
      have hwithout : ErasesInOrder s
          { s with store := s.store.erase Cell.policyUrl.key, writes := s.writes + 1 } :=
        ⟨rfl, rfl, .inr (.inl rfl)⟩
      refine Program.forall_moments_erase hwithout
        (fun e _ => Program.forall_moments_pure hwithout) fun _ => ?_
      -- the notice at the end leaves the store alone
      exact List.forall_mem_cons.2 ⟨⟨rfl, rfl, .inr (.inr rfl)⟩,
        List.forall_mem_singleton.2 ⟨rfl, rfl, .inr (.inr rfl)⟩⟩

/-! ## How a removal ends -/

/-- How a removal of the policy URL may end, and why: what it answers, and the store that it leaves. -/
inductive RemovalEnds : Except Error Unit → Store → Prop
  /-- An administrator has laid down the policy URL. -/
  | managed (hmanaged : c.managedUrl? ≠ none) : RemovalEnds (.error .managed) s.store
  /-- The lock cannot be read. -/
  | unreadable {e : StoreError} (hmanaged : c.managedUrl? = none) (hlock : s.lock env = .error e) :
      RemovalEnds (.error (.store e)) s.store
  /-- The lock asks for a password that the session has not presented. -/
  | locked {lock : AccessLock} (hmanaged : c.managedUrl? = none) (hlock : s.lock env = .ok lock)
      (hstatus : lock.status = .locked) (hsession : session.isUnlocked = false) :
      RemovalEnds (.error .locked) s.store
  /-- The policy URL cannot be erased. -/
  | urlStays {e : IoError} (hleave : editable c session (s.lock env) = .ok ())
      (hfault : env.writeFault Cell.policyUrl.key = some e) :
      RemovalEnds (.error (.store (.io e))) s.store
  /-- The policy URL is erased, and the lock cannot be. -/
  | lockStays {e : IoError} {store : Store} (hleave : editable c session (s.lock env) = .ok ())
      (hnofault : env.writeFault Cell.policyUrl.key = none)
      (hfault : env.writeFault Cell.accessLock.key = some e)
      (hurl : store.get? Cell.policyUrl.key = none)
      (hlock : store.get? Cell.accessLock.key = s.store.get? Cell.accessLock.key) :
      RemovalEnds (.error (.store (.io e))) store
  /-- Both are erased. -/
  | removed {store : Store} (hleave : editable c session (s.lock env) = .ok ())
      (hurl : store.get? Cell.policyUrl.key = none)
      (hlock : store.get? Cell.accessLock.key = none) :
      RemovalEnds (.ok ()) store

variable {env c session s}

/-- A removal without leave ends for one of three reasons and leaves the store as it is. -/
theorem RemovalEnds.of_not_editable {e : Error} (h : editable c session (s.lock env) = .error e) :
    RemovalEnds env c session s (.error e) s.store := by
  unfold editable at h
  cases hmanaged : c.managedUrl? with
  | some url =>
    rw [hmanaged] at h
    obtain rfl := Except.error.inj h
    exact .managed (by simp [hmanaged])
  | none =>
    rw [hmanaged] at h
    cases hlock : s.lock env with
    | error e' =>
      rw [hlock] at h
      obtain rfl := Except.error.inj h
      exact .unreadable hmanaged hlock
    | ok lock =>
      rw [hlock] at h
      by_cases hpass : session.mayEdit lock = true
      · simp [hpass] at h
      · simp only [Option.isSome_none, Bool.false_eq_true, if_false, hpass] at h
        obtain rfl := Except.error.inj h
        simp only [Session.mayEdit, AccessLock.isLocked, Bool.or_eq_true, not_or, Bool.not_eq_true,
          Bool.not_eq_false', decide_eq_true_eq] at hpass
        exact .locked hmanaged hlock hpass.1 hpass.2

/-- A removal with leave ends with both erased, or for a failure of the one or the other erasure. -/
theorem RemovalEnds.of_editable (h : editable c session (s.lock env) = .ok ()) :
    RemovalEnds env c session s ((removePolicyUrl c session).run env s).1
      ((removePolicyUrl c session).run env s).2.store := by
  have hrun := run_removePolicyUrl_of_ok h
  cases hurl : env.writeFault Cell.policyUrl.key with
  | some e =>
    rw [hurl] at hrun
    rw [hrun]
    exact .urlStays h hurl
  | none =>
    have hwithout : (s.store.erase Cell.policyUrl.key).get? Cell.policyUrl.key = none := by
      rw [Store.get?_erase, if_pos rfl]
    cases hlock : env.writeFault Cell.accessLock.key with
    | some e =>
      rw [hurl, hlock] at hrun
      rw [hrun.1, hrun.2]
      exact .lockStays h hurl hlock hwithout (by rw [Store.get?_erase, if_neg (by decide)])
    | none =>
      rw [hurl, hlock] at hrun
      rw [hrun.1, hrun.2]
      exact .removed h (by rw [Store.get?_erase, if_neg (by decide), hwithout])
        (by rw [Store.get?_erase, if_pos rfl])

/-- Whatever the state, the session and the failures of the store, a removal of the policy URL ends in one
of six ways: it is refused for a managed URL, a lock that cannot be read or one that holds, and the store is
as it was; the policy URL cannot be erased, and the store is as it was; it is erased and the lock cannot be,
and stays as it was stored; or both are gone.  In no state on the way, the last one included, is the lock
gone or another while the policy URL is there, and the rules of the engine, the shared matcher and what
stands under all other keys are those before it. -/
theorem removal_erases_url_first (env : Surroundings) (c : Config) (session : Session) (s : State) :
    let answer := ((removePolicyUrl c session).run env s).1
    let after := ((removePolicyUrl c session).run env s).2
    let states := (removePolicyUrl c session).moments env s
    RemovalEnds env c session s answer after.store ∧ after ∈ states ∧
      ∀ t ∈ states,
        (t.store.get? Cell.accessLock.key = s.store.get? Cell.accessLock.key ∨
          t.store.get? Cell.policyUrl.key = none) ∧
        t.engine = s.engine ∧ t.served = s.served ∧
        ∀ key, key ≠ Cell.policyUrl.key → key ≠ Cell.accessLock.key →
          t.store.get? key = s.store.get? key := by
  intro answer after states
  refine ⟨?_, Program.run_mem_moments, fun t ht => ?_⟩
  · cases hleave : editable c session (s.lock env) with
    | error e =>
      have hrun := run_removePolicyUrl_of_error hleave
      have hanswer : answer = .error e := congrArg Prod.fst hrun
      have hafter : after = s := congrArg Prod.snd hrun
      rw [hanswer, hafter]
      exact .of_not_editable hleave
    | ok u => exact .of_editable hleave
  · have horder := erasesInOrder_of_mem_moments env c session s t ht
    exact ⟨horder.lock_eq_or_url_eq_none, horder.engine, horder.served,
      fun key hurl hlock => horder.get?_eq hurl hlock⟩

end NavPolicy.Agent
