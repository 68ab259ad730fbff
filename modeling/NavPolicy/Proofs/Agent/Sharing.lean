import NavPolicy.Proofs.Agent.Calls
import NavPolicy.Proofs.Agent.Protocol
import NavPolicy.Proofs.Agent.Turns

/-!
# The matcher that is served

Navigations and refreshes run side by side, in any turns.  Whoever loads or replaces the shared matcher
holds the right to, which one program holds at a time.  A matcher that a navigation loads is therefore put
in place only where there is none, and is the one of the rules that were stored at the start; a matcher
that a refresh has put in place stays until another refresh replaces it (`Sharing.after`).

`Sharing` is what a moment of such a run leaves true.  It says how each program stands towards the matcher
by its protocol, who holds the right, and what each stance means for the state (`Stance.Fits`).
-/

namespace NavPolicy.Agent

/-! ## Jobs -/

/-- What may run side by side. -/
inductive Job where
  | refresh
  | navigation (n : Navigation)
  deriving DecidableEq

/-- What is done for a job. -/
def Job.program (c : Config) : Job → Program Answer
  | .refresh => do return .refreshed (← Agent.refresh c)
  | .navigation n => do return .navigated (← navigate c n)

/-- The protocol of a job. -/
def Job.protocol : Job → Protocol Stance
  | .refresh => RefreshStep
  | .navigation _ => NavigationStep

/-- Every job follows its protocol. -/
theorem follows_job (c : Config) (job : Job) :
    (job.program c).Follows job.protocol .apart fun _ _ => True := by
  cases job with
  | refresh => exact (follows_refresh c).bind fun _ _ _ => .pure trivial
  | navigation n => exact (follows_navigate c n).bind fun _ _ _ => .pure trivial

/-- The matcher that a step of a refresh puts in place. -/
def Step.published? (jobs : List Job) (st : Step) : Option Matcher :=
  match jobs[st.place]?, st.action with
  | some .refresh, .serve m => some m
  | _, _ => none

/-! ## What is served -/

/-- Whether a matcher is the one of the redirect rules that are stored in a state; without a text there
are none. -/
def State.Stores (s : State) (m : Matcher) : Prop :=
  ∃ rules, Cell.redirectRules.decode (s.store.get? Cell.redirectRules.key) = .ok rules ∧
    m = .ofRules (rules.getD [])

/-- Whether the served matcher is the latest of those that were published or, before the first, the one
that was served at the start or loaded from the store. -/
def State.ServesLatest (start : State) (published : List Matcher) (s : State) : Prop :=
  match published.getLast? with
  | some m => s.served = some m
  | none => s.served = start.served ∨
      start.served = none ∧ ∃ m, start.Stores m ∧ s.served = some m

/-- Whether a state serves the latest matcher, and stores the redirect rules of the start as long as none
was published. -/
structure State.Current (start : State) (published : List Matcher) (s : State) : Prop where
  latest : start.ServesLatest published s
  text : published = [] →
    s.store.get? Cell.redirectRules.key = start.store.get? Cell.redirectRules.key

/-- What a stance means for the state. -/
def Stance.Fits (start : State) (published : List Matcher) (s : State) : Stance → Prop
  | apart | holding => True
  | missing => s.served = none
  | loading text => s.served = none ∧ text = start.store.get? Cell.redirectRules.key
  | replaced | settled => published ≠ []

section OneStep

variable {start s t : State} {published : List Matcher} {st st' : Stance} {env : Surroundings}
variable {a : Action}

/-- Where nothing is served nothing was published. -/
theorem State.ServesLatest.published_eq_nil (h : start.ServesLatest published s)
    (hs : s.served = none) : published = [] ∧ start.served = none := by
  rw [ServesLatest] at h
  cases hlast : published.getLast? with
  | some m =>
    rw [hlast] at h
    exact absurd (hs.symm.trans h) (by simp)
  | none =>
    rw [hlast] at h
    refine ⟨List.getLast?_eq_none_iff.1 hlast, ?_⟩
    rcases h with h | ⟨hstart, -⟩
    · exact h.symm.trans hs
    · exact hstart

/-- What is served decides whether it is the latest. -/
theorem State.ServesLatest.congr (h : start.ServesLatest published s) (hserved : t.served = s.served) :
    start.ServesLatest published t := by
  rw [ServesLatest, hserved]
  exact h

/-- A matcher that is published is the latest. -/
theorem State.servesLatest_publish {m : Matcher} (h : t.served = some m) :
    start.ServesLatest (published ++ [m]) t := by
  rw [ServesLatest, List.getLast?_concat]
  exact h

/-- A stance means the same as long as the same is served. -/
theorem Stance.Fits.congr (h : st.Fits start published s) (hserved : t.served = s.served) :
    st.Fits start published t := by
  cases st with
  | missing => exact hserved.trans h
  | loading text => exact ⟨hserved.trans h.1, h.2⟩
  | _ => exact h

/-- The stance of one who does not hold the right means nothing for what is served. -/
theorem Stance.Fits.of_not_holds (h : st.Fits start published s) (hst : ¬ st.Holds) (t : State) :
    st.Fits start published t := by
  cases st with
  | apart => trivial
  | settled => exact h
  | _ => exact absurd trivial hst

/-- The stance of one who does not hold the right means the same after a matcher is published. -/
theorem Stance.Fits.publish (h : st.Fits start published s) (hst : ¬ st.Holds) (m : Matcher)
    (t : State) : st.Fits start (published ++ [m]) t := by
  cases st with
  | apart => trivial
  | settled => exact List.append_ne_nil_of_right_ne_nil _ (List.cons_ne_nil m [])
  | _ => exact absurd trivial hst

/-- Only putting a matcher in place changes what is served. -/
theorem served_answer_of_ne_serve (h : ∀ m, a ≠ .serve m) : (a.answer env s).2.served = s.served := by
  cases a with
  | serve m => exact absurd rfl (h m)
  | update u =>
    rw [Action.answer]
    split
    · rfl
    · split <;> rfl
  | _ => exact Action.KeepsRules.served_answer trivial

/-- An action that leaves the stored redirect rules alone leaves their text as it is. -/
theorem get?_answer_of_sparesRedirects (h : a.SparesRedirects) :
    (a.answer env s).2.store.get? Cell.redirectRules.key =
      s.store.get? Cell.redirectRules.key := by
  cases a with
  | write key text =>
    rw [Action.answer]
    cases env.writeFault key with
    | some e => rfl
    | none => exact (s.store.get?_set ..).trans (if_neg (Ne.symm h))
  | erase key =>
    rw [Action.answer]
    cases env.writeFault key with
    | some e => rfl
    | none => exact (s.store.get?_erase ..).trans (if_neg (Ne.symm h))
  | _ => exact congrArg (Store.get? · _) (Action.KeepsStore.store_answer trivial)

/-- A step that puts no matcher in place keeps the state current, if it leaves the stored redirect rules
alone or comes after a matcher was published. -/
theorem State.Current.answer (h : start.Current published s) (hserve : ∀ m, a ≠ .serve m)
    (htext : a.SparesRedirects ∨ published ≠ []) :
    start.Current published (a.answer env s).2 where
  latest := h.latest.congr (served_answer_of_ne_serve hserve)
  text hnil := by
    rcases htext with hspares | hne
    · exact (get?_answer_of_sparesRedirects hspares).trans (h.text hnil)
    · exact absurd hnil hne

/-- A step of a refresh publishes a matcher, or leaves what is served as it is. -/
theorem refreshStep_cases (env : Surroundings) (hstep : RefreshStep st a (a.answer env s).1 st')
    (hfits : st.Fits start published s) (h : start.Current published s) :
    (∃ m, a = .serve m ∧ OfPolicy m ∧ st.Holds ∧ st' = .replaced) ∨
      ((∀ m, a ≠ .serve m) ∧ start.Current published (a.answer env s).2 ∧
        st'.Fits start published (a.answer env s).2) := by
  generalize (a.answer env s).1 = answer at hstep
  cases hstep with
  | before answer haside hspares =>
    have hserve : ∀ m, a ≠ .serve m := by
      rintro m rfl
      exact haside
    exact .inr ⟨hserve, h.answer hserve (.inl hspares), trivial⟩
  | take => exact .inr ⟨by nofun, h.answer (by nofun) (.inl trivial), trivial⟩
  | replace hm => exact .inl ⟨_, rfl, hm, trivial, rfl⟩
  | letGo => exact .inr ⟨by nofun, h.answer (by nofun) (.inl trivial), hfits⟩
  | after answer haside =>
    have hserve : ∀ m, a ≠ .serve m := by
      rintro m rfl
      exact haside
    exact .inr ⟨hserve, h.answer hserve (.inr hfits), hfits⟩

/-- A step of a navigation loads a matcher where none is served, or leaves what is served as it is. -/
theorem navigationStep_cases (env : Surroundings) (hstep : NavigationStep st a (a.answer env s).1 st')
    (hfits : st.Fits start published s) (h : start.Current published s) :
    (∃ m, a = .serve m ∧ s.served = none ∧ start.Stores m ∧ st.Holds ∧ st' = .holding) ∨
      ((∀ m, a ≠ .serve m) ∧ start.Current published (a.answer env s).2 ∧
        st'.Fits start published (a.answer env s).2) := by
  generalize hanswer : (a.answer env s).1 = answer at hstep
  cases hstep with
  | scan answer hscans =>
    have hserve : ∀ m, a ≠ .serve m := by
      rintro m rfl
      exact hscans
    have hspares : a.SparesRedirects := by
      cases a <;> first | exact trivial | exact hscans.elim
    exact .inr ⟨hserve, h.answer hserve (.inl hspares), trivial⟩
  | take => exact .inr ⟨by simp, h.answer (by simp) (.inl trivial), trivial⟩
  | find m => exact .inr ⟨by simp, h.answer (by simp) (.inl trivial), trivial⟩
  | miss => exact .inr ⟨by simp, h.answer (by simp) (.inl trivial), hanswer⟩
  | read text =>
    refine .inr ⟨by simp, h.answer (by simp) (.inl trivial), ?_⟩
    have hserved : s.served = none := hfits
    -- the text that is read is that of the start, since nothing was published
    obtain ⟨hnil, -⟩ := h.latest.published_eq_nil hserved
    rw [Action.answer] at hanswer ⊢
    cases hfault : env.readFault Cell.redirectRules.key with
    | some e =>
      rw [hfault] at hanswer
      exact absurd hanswer (by simp)
    | none =>
      rw [hfault] at hanswer
      exact ⟨hserved, (Except.ok.inj hanswer).symm.trans (h.text hnil)⟩
  | fail e =>
    refine .inr ⟨by simp, h.answer (by simp) (.inl trivial), ?_⟩
    have hserved : s.served = none := hfits
    exact (served_answer_of_ne_serve (by simp)).trans hserved
  | note text n => exact .inr ⟨by simp, h.answer (by simp) (.inl trivial), hfits⟩
  | @share text rules hrules =>
    obtain ⟨hserved, htext⟩ : s.served = none ∧ text = _ := hfits
    exact .inl ⟨_, rfl, hserved, ⟨rules, htext ▸ hrules, rfl⟩, trivial, rfl⟩
  | letGo hholds => exact .inr ⟨by simp, h.answer (by simp) (.inl trivial), trivial⟩

end OneStep

/-! ## Who holds the right -/

/-- Whether the right to load or replace the matcher is held once, by one whose stance says so, or not
at all. -/
def Exclusive (held : List Resource) (stance : Nat → Stance) : Prop :=
  ∃ owner : Option Nat, held.count .matcher = owner.toList.length ∧
    ∀ i, (stance i).Holds ↔ owner = some i

section Holding

variable {held : List Resource} {stance : Nat → Stance} {i j : Nat} {st st' : Stance} {a : Action}

/-- Two do not hold the right at once. -/
theorem Exclusive.not_holds (h : Exclusive held stance) (hi : (stance i).Holds) (hij : j ≠ i) :
    ¬ (stance j).Holds := by
  obtain ⟨owner, -, howner⟩ := h
  intro hj
  exact hij (Option.some.inj (((howner j).1 hj).symm.trans ((howner i).1 hi)))

/-- The right is taken, given back, or held as before. -/
theorem holds_cases {job : Job} {answer : a.Answer} (h : job.protocol st a answer st') :
    (a = .acquire .matcher ∧ st'.Holds) ∨ (a = .release .matcher ∧ st.Holds ∧ ¬ st'.Holds) ∨
      (a ≠ .acquire .matcher ∧ a ≠ .release .matcher ∧ (st'.Holds ↔ st.Holds)) := by
  have haside (ha : a.Aside) : a ≠ .acquire .matcher ∧ a ≠ .release .matcher := by
    constructor <;> (rintro rfl; exact nomatch (show Resource.matcher = .refresh from ha))
  cases job with
  | refresh =>
    cases h with
    | before answer ha => exact .inr (.inr ⟨(haside ha).1, (haside ha).2, Iff.rfl⟩)
    | take => exact .inl ⟨rfl, trivial⟩
    | replace => exact .inr (.inr ⟨by nofun, by nofun, Iff.rfl⟩)
    | letGo => exact .inr (.inl ⟨rfl, trivial, id⟩)
    | after answer ha => exact .inr (.inr ⟨(haside ha).1, (haside ha).2, Iff.rfl⟩)
  | navigation n =>
    cases h with
    | scan answer hscans =>
      refine .inr (.inr ⟨?_, ?_, Iff.rfl⟩) <;> (rintro rfl; exact hscans)
    | take => exact .inl ⟨rfl, trivial⟩
    | letGo hholds => exact .inr (.inl ⟨rfl, hholds, id⟩)
    | _ => exact .inr (.inr ⟨by nofun, by nofun, Iff.rfl⟩)

/-- Only taking the right and giving it back changes how often it is held. -/
theorem count_heldAfter (hacquire : a ≠ .acquire .matcher) (hrelease : a ≠ .release .matcher) :
    (Program.heldAfter held a).count .matcher = held.count .matcher := by
  cases a with
  | acquire r =>
    cases r with
    | refresh => exact List.count_cons_of_ne (by decide)
    | matcher => exact absurd rfl hacquire
  | release r =>
    cases r with
    | refresh => exact List.count_erase_of_ne (by decide)
    | matcher => exact absurd rfl hrelease
  | _ => rfl

/-- After a step the right is held once or not at all. -/
theorem Exclusive.step {α : Type} {next : a.Answer → Program α} {job : Job} {answer : a.Answer}
    (h : Exclusive held stance) (hwaits : (Program.ask a next).waits held = false)
    (hstep : job.protocol (stance i) a answer st') :
    Exclusive (Program.heldAfter held a) (Function.update stance i st') := by
  obtain ⟨owner, hcount, howner⟩ := h
  -- how the holders change when the one at this place does
  have hupdate {owner' : Option Nat} (hi : st'.Holds ↔ owner' = some i)
      (hothers : ∀ j, j ≠ i → ((stance j).Holds ↔ owner' = some j)) :
      ∀ j, (Function.update stance i st' j).Holds ↔ owner' = some j := by
    intro j
    by_cases hj : j = i
    · rw [hj, Function.update_self, hi]
    · rw [Function.update_of_ne hj, hothers j hj]
  rcases holds_cases hstep with ⟨rfl, hholds⟩ | ⟨rfl, hheld, hholds⟩ | ⟨hacquire, hrelease, hiff⟩
  · have hfree : Resource.matcher ∉ held := by simpa [Program.waits] using hwaits
    rw [List.count_eq_zero.2 hfree] at hcount
    obtain rfl : owner = none := by
      cases owner with
      | none => rfl
      | some j => exact absurd hcount (by simp)
    refine ⟨some i, ?_, hupdate (iff_of_true hholds rfl) fun j hj => ?_⟩
    · rw [Program.heldAfter, List.count_cons_self, List.count_eq_zero.2 hfree]
      rfl
    · rw [howner j]
      exact iff_of_false (by simp) fun hsome => hj (Option.some.inj hsome).symm
  · obtain rfl : owner = some i := (howner i).1 hheld
    refine ⟨none, ?_, hupdate (iff_of_false hholds (by simp)) fun j hj => ?_⟩
    · rw [Program.heldAfter, List.count_erase_self, hcount]
      rfl
    · rw [howner j]
      exact iff_of_false (fun hsome => hj (Option.some.inj hsome).symm) (by simp)
  · refine ⟨owner, ?_, hupdate (hiff.trans (howner i)) fun j _ => howner j⟩
    rw [count_heldAfter hacquire hrelease, hcount]

end Holding

/-! ## Published matchers -/

section Published

variable {jobs : List Job} {st : Step}

/-- A refresh publishes the matcher that it puts in place. -/
theorem published?_of_refresh {m : Matcher} (hjob : jobs[st.place]? = some .refresh)
    (haction : st.action = .serve m) : st.published? jobs = some m := by
  rw [Step.published?, hjob, haction]

/-- A navigation publishes nothing. -/
theorem published?_of_navigation {n : Navigation} (hjob : jobs[st.place]? = some (.navigation n)) :
    st.published? jobs = none := by
  rw [Step.published?, hjob]

/-- Only a step that puts a matcher in place publishes one. -/
theorem published?_of_ne_serve (haction : ∀ m, st.action ≠ .serve m) :
    st.published? jobs = none := by
  rw [Step.published?]
  split
  · next hserve => exact absurd hserve (haction _)
  · rfl

end Published

/-! ## Runs -/

/-- How programs stand towards the matcher, each by the protocol of its job. -/
def Follow (jobs : List Job) (programs : List (Program Answer)) (stance : Nat → Stance) : Prop :=
  ∀ i p, programs[i]? = some p →
    ∃ job, jobs[i]? = some job ∧ Program.Follows job.protocol p (stance i) fun _ _ => True

/-- What a moment of a run leaves true, with how each program stands towards the matcher. -/
structure Sharing (start : State) (jobs : List Job) (published : List Matcher)
    (m : Interleaving Answer) (stance : Nat → Stance) : Prop where
  follow : Follow jobs m.programs stance
  exclusive : Exclusive m.held stance
  fits : ∀ i, (stance i).Fits start published m.state
  current : start.Current published m.state

/-- Jobs that have not begun. -/
theorem sharing_start (c : Config) (start : State) (jobs : List Job) :
    Sharing start jobs [] (.ofPrograms start (jobs.map (Job.program c))) fun _ => .apart where
  follow i p hp := by
    obtain ⟨job, hjob, rfl⟩ := Option.map_eq_some_iff.1 ((List.getElem?_map ..).symm.trans hp)
    exact ⟨job, hjob, follows_job c job⟩
  exclusive := ⟨none, rfl, fun i => iff_of_false id (by simp)⟩
  fits _ := trivial
  current := ⟨.inl rfl, fun _ => rfl⟩

section Places

variable {start s : State} {jobs : List Job} {programs : List (Program Answer)}
variable {stance : Nat → Stance} {place : Nat} {p q : Program Answer} {st : Stance} {job : Job}
variable {published : List Matcher}

/-- One program goes on, and with it how it stands. -/
theorem Follow.update (h : Follow jobs programs stance) (hplace : programs[place]? = some q)
    (hjob : jobs[place]? = some job) (hp : p.Follows job.protocol st fun _ _ => True) :
    Follow jobs (programs.set place p) (Function.update stance place st) := by
  intro i q' hq'
  by_cases hi : i = place
  · subst hi
    have hlt : i < programs.length := (List.getElem?_eq_some_iff.1 hplace).1
    obtain rfl := Option.some.inj ((List.getElem?_set_self hlt).symm.trans hq')
    exact ⟨job, hjob, by rwa [Function.update_self]⟩
  · rw [Function.update_of_ne hi]
    exact h i q' ((List.getElem?_set_ne (Ne.symm hi)).symm.trans hq')

/-- What the stances mean is checked at one place and at the others. -/
theorem fits_update (hst : st.Fits start published s)
    (hothers : ∀ i ≠ place, (stance i).Fits start published s) (i : Nat) :
    (Function.update stance place st i).Fits start published s := by
  by_cases hi : i = place
  · rwa [hi, Function.update_self]
  · rw [Function.update_of_ne hi]
    exact hothers i hi

end Places

namespace Sharing

variable {start : State} {jobs : List Job} {published : List Matcher} {m : Interleaving Answer}
variable {stance : Nat → Stance}

/-- The programs share the matcher after a turn as they did before. -/
theorem turn (h : Sharing start jobs published m stance) (t : Turn) :
    ∃ stance', Sharing start jobs
      (published ++ ((m.step? t).bind (Step.published? jobs)).toList) (m.turn t.env t.place)
      stance' := by
  rcases m.turn_cases t with ⟨hstep, hturn⟩ | ⟨a, next, hplace, hwaits, hstep, hturn⟩
  · refine ⟨stance, ?_⟩
    rw [hstep, hturn, Option.bind_none, Option.toList_none, List.append_nil]
    exact h
  · obtain ⟨job, hjob, hfollows⟩ := h.follow _ _ hplace
    obtain ⟨st', hprotocol, hnext⟩ := hfollows (a.answer t.env m.state).1
    have hfollow := h.follow.update hplace hjob hnext
    have hexclusive := h.exclusive.step hwaits hprotocol
    rw [hstep, Option.bind_some, hturn]
    -- a step that puts no matcher in place
    have hquiet (hserve : ∀ x, a ≠ .serve x)
        (hcurrent : start.Current published (a.answer t.env m.state).2)
        (hfits : st'.Fits start published (a.answer t.env m.state).2) :
        ∃ stance', Sharing start jobs
          (published ++ (Step.published? jobs ⟨t.env, t.place, m.state, a⟩).toList)
          ⟨(a.answer t.env m.state).2, Program.heldAfter m.held a,
            m.programs.set t.place (next (a.answer t.env m.state).1)⟩ stance' := by
      rw [published?_of_ne_serve hserve, Option.toList_none, List.append_nil]
      exact ⟨_, hfollow, hexclusive, fits_update hfits fun i _ =>
        (h.fits i).congr (served_answer_of_ne_serve hserve), hcurrent⟩
    cases job with
    | refresh =>
      rcases refreshStep_cases t.env hprotocol (h.fits t.place) h.current with
        ⟨x, rfl, -, hholds, rfl⟩ | ⟨hserve, hcurrent, hfits⟩
      · rw [published?_of_refresh hjob rfl, Option.toList_some]
        refine ⟨_, hfollow, hexclusive, fits_update ?_ fun i hi => ?_, ?_, ?_⟩
        · exact List.append_ne_nil_of_right_ne_nil _ (List.cons_ne_nil x [])
        · exact (h.fits i).publish (h.exclusive.not_holds hholds hi) x _
        · exact State.servesLatest_publish rfl
        · exact fun hnil => absurd hnil (List.append_ne_nil_of_right_ne_nil _ (List.cons_ne_nil x []))
      · exact hquiet hserve hcurrent hfits
    | navigation n =>
      rcases navigationStep_cases t.env hprotocol (h.fits t.place) h.current with
        ⟨x, rfl, hserved, hstores, hholds, rfl⟩ | ⟨hserve, hcurrent, hfits⟩
      · obtain ⟨rfl, hstart⟩ := h.current.latest.published_eq_nil hserved
        rw [published?_of_navigation hjob, Option.toList_none, List.append_nil]
        -- nobody else is about to load a matcher
        refine ⟨_, hfollow, hexclusive, fits_update trivial fun i hi => ?_, ?_, h.current.text⟩
        · exact (h.fits i).of_not_holds (h.exclusive.not_holds hholds hi) _
        · exact .inr ⟨hstart, x, hstores, rfl⟩
      · exact hquiet hserve hcurrent hfits

/-- The programs share the matcher after any turns. -/
theorem after (h : Sharing start jobs published m stance) (ts : List Turn) :
    ∃ stance', Sharing start jobs (published ++ (m.steps ts).filterMap (Step.published? jobs))
      (m.afterTurns ts) stance' := by
  induction ts generalizing m published stance with
  | nil => exact ⟨stance, by rwa [Interleaving.steps, List.filterMap_nil, List.append_nil]⟩
  | cons t ts ih =>
    obtain ⟨stance', hturn⟩ := h.turn t
    obtain ⟨stance'', hrest⟩ := ih hturn
    refine ⟨stance'', ?_⟩
    rw [Interleaving.steps, List.filterMap_append, ← List.append_assoc]
    cases hstep : m.step? t with
    | none =>
      rw [hstep] at hrest
      exact hrest
    | some st =>
      rw [hstep, Option.bind_some] at hrest
      rw [Option.toList_some, List.filterMap_cons, List.filterMap_nil]
      cases hpublished : st.published? jobs with
      | none =>
        rw [hpublished] at hrest
        exact hrest
      | some x =>
        rw [hpublished] at hrest
        exact hrest

end Sharing

end NavPolicy.Agent
