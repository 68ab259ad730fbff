import NavPolicy.Proofs.Agent.Sharing

/-!
# One matcher for each navigation

However navigations and refreshes take turns, a navigation that gets a matcher scans the rules of that one
alone.  The matcher was served at some moment while the navigation was under way, and the navigation asks
the pages, sends the overrides and gives the answer that a scan of these rules would alone, where the same
pages answer the same (`navigations_see_one_matcher`).

The steps of the navigation tell all this: those before the scan get the matcher by a look or by loading
it (`exists_served_of_comes_sharedMatcher`), and those of the scan are what the scan does alone
(`run_of_comes`).
-/

namespace NavPolicy.Agent

open Program (perform)

/-! ## What steps do to the world -/

namespace Step

/-- The page that a step asks. -/
def probe? (st : Step) : Option String :=
  match st.action with
  | .probe url _ => some url
  | _ => none

/-- The override that a step sends, unless the browser does not listen. -/
def override? (st : Step) : Option Override :=
  match st.action with
  | .redirect o => if st.env.listening then some o else none
  | _ => none

/-- Whether a step asks a page. -/
def isProbe (st : Step) : Bool := st.probe?.isSome

end Step

/-- Whether surroundings answer a program that is alone as the pages and the browser answered in these
steps. -/
structure Surroundings.AnswersAs (alone : Surroundings) (sts : List Step) : Prop where
  page : ∀ k st, (sts.filter Step.isProbe)[k]? = some st →
    alone.page k = st.env.page st.state.probed.length
  listening : ∀ st ∈ sts, ∀ o, st.action = .redirect o → alone.listening = st.env.listening

section Alone

variable {α β : Type} {p : Program α} {sts : List Step} {x : α} {alone : Surroundings} {s : State}

/-- An action that is answered alone as it was in a step does alone what it did in the step. -/
theorem answer_alone (st : Step) (alone : Surroundings) (s : State) (hscans : st.action.Scans)
    (hpage : st.isProbe = true → alone.page s.probed.length = st.env.page st.state.probed.length)
    (hlistening : ∀ o, st.action = .redirect o → alone.listening = st.env.listening) :
    (st.action.answer alone s).1 = (st.action.answer st.env st.state).1 ∧
      (st.action.answer alone s).2.probed = s.probed ++ st.probe?.toList ∧
      (st.action.answer alone s).2.sent = s.sent ++ st.override?.toList := by
  obtain ⟨env, place, met, a⟩ := st
  cases a with
  | note n => exact ⟨rfl, (List.append_nil _).symm, (List.append_nil _).symm⟩
  | probe url ms =>
    refine ⟨?_, rfl, (List.append_nil _).symm⟩
    show (alone.page s.probed.length url).getD _ = (env.page met.probed.length url).getD _
    rw [hpage rfl]
  | redirect o =>
    have hlisten : alone.listening = env.listening := hlistening o rfl
    simp only [Action.answer, Step.probe?, Step.override?, hlisten]
    cases env.listening with
    | true => exact ⟨rfl, (List.append_nil _).symm, rfl⟩
    | false => exact ⟨rfl, (List.append_nil _).symm, (List.append_nil _).symm⟩
  | _ => exact hscans.elim

/-- What the first step gives comes before what the others give. -/
theorem toList_append_filterMap {γ : Type} (f : Step → Option γ) (st : Step) (sts : List Step) :
    (f st).toList ++ sts.filterMap f = (st :: sts).filterMap f := by
  rw [List.filterMap_cons]
  cases f st <;> rfl

/-- A scan that is answered alone as it was in its steps asks the same pages, sends the same overrides
and comes to the same. -/
theorem run_of_comes (hp : p.All Action.Scans) {q : Program α} (h : p.Comes sts q) (hq : q = .done x)
    (hpage : ∀ k st, (sts.filter Step.isProbe)[k]? = some st →
      alone.page (s.probed.length + k) = st.env.page st.state.probed.length)
    (hlistening : ∀ st ∈ sts, ∀ o, st.action = .redirect o → alone.listening = st.env.listening) :
    (p.run alone s).1 = x ∧ (p.run alone s).2.probed = s.probed ++ sts.filterMap Step.probe? ∧
      (p.run alone s).2.sent = s.sent ++ sts.filterMap Step.override? := by
  induction h generalizing s with
  | nil p =>
    subst hq
    exact ⟨rfl, (List.append_nil _).symm, (List.append_nil _).symm⟩
  | @cons a next env place met sts q h ih =>
    let st : Step := ⟨env, place, met, a⟩
    obtain ⟨hlisten, hlater⟩ := List.forall_mem_cons.1 hlistening
    obtain ⟨hanswer, hprobed, hsent⟩ := answer_alone st alone s hp.1
      (fun hprobe => hpage 0 st (by rw [List.filter_cons_of_pos hprobe]; rfl)) hlisten
    -- a page that was asked in this step is one that the later steps count
    have hcount : ∀ k later, (sts.filter Step.isProbe)[k]? = some later →
        alone.page ((a.answer alone s).2.probed.length + k) =
          later.env.page later.state.probed.length := by
      intro k later hk
      rw [show (a.answer alone s).2.probed = _ from hprobed, List.length_append]
      cases hst : st.probe? with
      | none =>
        have hprobe : ¬ st.isProbe = true := by simp [Step.isProbe, hst]
        refine hpage k later ?_
        rw [List.filter_cons_of_neg hprobe]
        exact hk
      | some url =>
        have hprobe : st.isProbe = true := by simp [Step.isProbe, hst]
        rw [Option.toList_some, List.length_singleton, Nat.add_assoc, Nat.add_comm 1 k]
        refine hpage (k + 1) later ?_
        rw [List.filter_cons_of_pos hprobe]
        exact hk
    have hrun := ih (s := (a.answer alone s).2) (hp.2 _) hq hcount hlater
    rw [← show (a.answer alone s).1 = (a.answer env met).1 from hanswer,
      show (a.answer alone s).2.probed = _ from hprobed,
      show (a.answer alone s).2.sent = _ from hsent, List.append_assoc, List.append_assoc,
      toList_append_filterMap, toList_append_filterMap] at hrun
    exact hrun

end Alone

/-! ## The last action of a scan -/

/-- Whether actions of a kind are the last of a program. -/
def Program.EndsAfter {α : Type} (P : Action → Prop) : Program α → Prop
  | .done _ => True
  | .ask a next => ∀ answer, (P a → ∃ x, next answer = .done x) ∧ (next answer).EndsAfter P

section Endings

variable {α β : Type} {P : Action → Prop} {p : Program α} {f : α → Program β} {sts : List Step}

/-- A program that does nothing has no last action. -/
theorem Program.EndsAfter.pure (x : α) : (Pure.pure x : Program α).EndsAfter P := trivial

/-- Other actions may come before. -/
theorem Program.EndsAfter.bind (hp : p.All fun a => ¬ P a) (hf : ∀ x, (f x).EndsAfter P) :
    (p >>= f).EndsAfter P := by
  induction p with
  | done x => exact hf x
  | ask a next ih => exact fun answer => ⟨fun ha => absurd ha hp.1, ih answer (hp.2 answer)⟩

/-- A step with an action that can only be the last is the last. -/
theorem Program.Comes.getLast?_eq (hp : p.EndsAfter P) {q : Program α} (h : p.Comes sts q) :
    ∀ st ∈ sts, P st.action → sts.getLast? = some st := by
  induction h with
  | nil p => exact fun st hst => absurd hst List.not_mem_nil
  | cons env place s h ih =>
    obtain ⟨hend, hnext⟩ := hp (Action.answer env s _).1
    intro st hst haction
    rcases List.mem_cons.1 hst with rfl | hst
    · obtain ⟨x, hx⟩ := hend haction
      rw [hx] at h
      obtain ⟨rfl, -⟩ := h.done_inv
      rfl
    · rw [List.getLast?_cons, ih hnext st hst haction]
      rfl

/-- Whether an action sends an override. -/
def Action.Redirects : Action → Prop
  | redirect _ => True
  | _ => False

/-- A scan sends one override at most, and then ends. -/
theorem endsAfter_scan (c : Config) (tab : Int32) (url : String) (rules : List RedirectRule) :
    (scan c tab url rules).EndsAfter Action.Redirects := by
  have hresolve (candidates : List Candidate) :
      (resolve c candidates).All fun a => ¬ a.Redirects := by
    induction candidates with
    | nil => exact .pure _
    | cons candidate rest ih =>
      cases candidate with
      | inline url => exact .pure _
      | remote url =>
        refine .bind (.perform id) fun answer => ?_
        cases answer with
        | ok u => exact .pure _
        | error e => exact .bind (.perform id) fun _ => ih
  induction rules with
  | nil => exact .pure _
  | cons rule rules ih =>
    refine .bind (.perform id) fun _ => .bind (hresolve _) fun target => ?_
    cases target with
    | none => exact ih
    | some target =>
      refine .bind (.perform id) fun _ => ?_
      intro sent
      cases sent with
      | true => exact ⟨fun _ => ⟨_, rfl⟩, .pure _⟩
      | false => exact ⟨fun _ => ⟨_, rfl⟩, .pure _⟩

/-- The steps of a scan are answered as by surroundings in which it is alone. -/
theorem exists_answersAs (h : p.EndsAfter Action.Redirects) {q : Program α} (hcomes : p.Comes sts q) :
    ∃ alone : Surroundings, alone.AnswersAs sts := by
  let page (k : Nat) : String → Option (Except ProbeError Unit) :=
    match (sts.filter Step.isProbe)[k]? with
    | some st => st.env.page st.state.probed.length
    | none => fun _ => none
  let listening : Bool := (sts.getLast?).elim true fun st => st.env.listening
  refine ⟨{ Surroundings.offline "" ⟨0, 0⟩ with page, listening }, fun k st hst => ?_,
    fun st hst o ho => ?_⟩
  · show page k = _
    simp only [page, hst]
  · show listening = _
    have hlast := hcomes.getLast?_eq h st hst (by rw [ho]; trivial)
    simp only [listening, hlast, Option.elim_some]

end Endings

/-! ## Getting the matcher -/

/-- Whether a matcher is served right after one of these steps, and not the last. -/
def ServedWithin (m : Matcher) (sts : List Step) : Prop :=
  ∃ pre st post, sts = pre ++ st :: post ∧ post ≠ [] ∧ st.after.served = some m

section Getting

variable {sts : List Step} {m : Matcher} {st : Step}

/-- A matcher that is served after the first step. -/
theorem servedWithin_cons (hst : st.after.served = some m) (hrest : sts ≠ []) :
    ServedWithin m (st :: sts) := ⟨[], st, sts, rfl, hrest, hst⟩

/-- More steps may come before. -/
theorem ServedWithin.append (h : ServedWithin m sts) (before : List Step) :
    ServedWithin m (before ++ sts) := by
  obtain ⟨pre, st, post, rfl, hpost, hst⟩ := h
  exact ⟨before ++ pre, st, post, (List.append_assoc ..).symm, hpost, hst⟩

/-- More steps may come after. -/
theorem ServedWithin.append_right (h : ServedWithin m sts) (after : List Step) :
    ServedWithin m (sts ++ after) := by
  obtain ⟨pre, st, post, rfl, hpost, hst⟩ := h
  exact ⟨pre, st, post ++ after, List.append_assoc .., List.append_ne_nil_of_left_ne_nil hpost _, hst⟩

/-- One who gives the right back at the end takes a step for it. -/
theorem comes_giveBack {x y : Except StoreError Matcher}
    (h : (perform (.release .matcher) >>= fun _ => pure x :
      Program (Except StoreError Matcher)).Comes sts (.done y)) : y = x ∧ sts ≠ [] := by
  obtain ⟨env, place, s, rest, rfl, hrest⟩ := h.perform_bind_inv
  obtain ⟨-, hy⟩ := hrest.done_inv
  exact ⟨Program.done.inj hy, List.cons_ne_nil _ _⟩

/-- Loading a matcher finds one served or serves one, and is not over then. -/
theorem servedWithin_loadMatcher (h : loadMatcher.Comes sts (.done (.ok m))) :
    ServedWithin m sts := by
  obtain ⟨env₁, place₁, s₁, sts₁, rfl, hlook⟩ := h.perform_bind_inv
  refine ServedWithin.append ?_ [_]
  obtain ⟨env₂, place₂, s₂, sts₂, rfl, hfound⟩ := hlook.perform_bind_inv
  cases hserved : s₂.served with
  | some x =>
    rw [show (Action.served.answer env₂ s₂).1 = some x from hserved] at hfound
    obtain ⟨hx, hrest⟩ := comes_giveBack hfound
    exact servedWithin_cons (hserved.trans (congrArg some (Except.ok.inj hx).symm)) hrest
  | none =>
    rw [show (Action.served.answer env₂ s₂).1 = none from hserved] at hfound
    obtain ⟨rules, reading, sts₃, rfl, -, hread⟩ := hfound.bind_inv
    cases rules with
    | error e =>
      obtain ⟨hx, -⟩ := comes_giveBack hread
      exact absurd hx (by simp)
    | ok rules =>
      obtain ⟨-, noting, sts₄, rfl, -, hnoted⟩ := hread.bind_inv
      obtain ⟨env₅, place₅, s₅, sts₅, rfl, hdone⟩ := hnoted.perform_bind_inv
      obtain ⟨hx, hrest⟩ := comes_giveBack hdone
      have hlast : ServedWithin m (⟨env₅, place₅, s₅, .serve (.ofRules rules)⟩ :: sts₅) :=
        servedWithin_cons (congrArg some (Except.ok.inj hx).symm) hrest
      exact ((hlast.append noting).append reading).append [_]

/-- Getting the matcher finds one served or serves one, and is not over then. -/
theorem servedWithin_sharedMatcher (h : sharedMatcher.Comes sts (.done (.ok m))) :
    ServedWithin m sts := by
  obtain ⟨env₁, place₁, s₁, sts₁, rfl, hlook⟩ := h.perform_bind_inv
  refine ServedWithin.append ?_ [_]
  obtain ⟨env₂, place₂, s₂, sts₂, rfl, hfound⟩ := hlook.perform_bind_inv
  obtain ⟨env₃, place₃, s₃, sts₃, rfl, hgiven⟩ := hfound.perform_bind_inv
  cases hserved : s₂.served with
  | some x =>
    rw [show (Action.served.answer env₂ s₂).1 = some x from hserved] at hgiven
    obtain ⟨-, hx⟩ := hgiven.done_inv
    refine servedWithin_cons ?_ (List.cons_ne_nil _ _)
    exact hserved.trans (congrArg some (Except.ok.inj (Program.done.inj hx)).symm)
  | none =>
    rw [show (Action.served.answer env₂ s₂).1 = none from hserved] at hgiven
    exact (servedWithin_loadMatcher hgiven).append [_, _]

/-- Whether an action asks no page and sends nothing. -/
def Action.Idle : Action → Prop
  | probe _ _ | redirect _ => False
  | _ => True

/-- Steps that ask no page and send nothing. -/
theorem idle_steps (h : ∀ st ∈ sts, st.action.Idle) :
    (∀ st ∈ sts, st.probe? = none) ∧ ∀ st ∈ sts, st.override? = none := by
  constructor <;>
    (rintro ⟨env, place, s, a⟩ hst
     have ha := h _ hst
     cases a <;> first | rfl | exact ha.elim)

/-- Getting the matcher asks no page and sends nothing. -/
theorem idle_sharedMatcher : sharedMatcher.All Action.Idle :=
  all_sharedMatcher (fun _ => trivial) (fun _ => trivial) trivial (fun _ => trivial) trivial trivial

/-- Steps that ask no page and send nothing count for nothing. -/
theorem append_idle {before : List Step} (h : ∀ st ∈ before, st.action.Idle) (sts : List Step) :
    (before ++ sts).filterMap Step.probe? = sts.filterMap Step.probe? ∧
      (before ++ sts).filterMap Step.override? = sts.filterMap Step.override? ∧
      ∀ alone : Surroundings, alone.AnswersAs sts → alone.AnswersAs (before ++ sts) := by
  obtain ⟨hprobes, hoverrides⟩ := idle_steps h
  refine ⟨?_, ?_, fun alone halone => ⟨?_, ?_⟩⟩
  · rw [List.filterMap_append, List.filterMap_eq_nil_iff.2 hprobes, List.nil_append]
  · rw [List.filterMap_append, List.filterMap_eq_nil_iff.2 hoverrides, List.nil_append]
  · have hnone : before.filter Step.isProbe = [] :=
      List.filter_eq_nil_iff.2 fun st hst => by simp [Step.isProbe, hprobes st hst]
    rw [List.filter_append, hnone, List.nil_append]
    exact halone.page
  · intro st hst o ho
    rcases List.mem_append.1 hst with hst | hst
    · exact absurd (h st hst) (by rw [ho]; exact id)
    · exact halone.listening st hst o ho

end Getting

/-! ## Navigations -/

section Navigations

variable {sts : List Step} {c : Config} {n : Navigation} {url : String}
variable {r : Except Error (Option String)}

/-- A navigation that has ended failed to get a matcher and did nothing, or was served one on the way and
did what a scan of its rules does alone. -/
theorem navigate_of_comes (hn : n.target? = some url) (h : (navigate c n).Comes sts (.done r)) :
    (∃ e, r = .error (.store e) ∧ sts.filterMap Step.probe? = [] ∧
        sts.filterMap Step.override? = []) ∨
      ∃ m alone, ServedWithin m sts ∧ Surroundings.AnswersAs alone sts ∧
        let scanned := (scan c n.tab url (m.matching url)).run alone (.initial .empty .empty)
        r = scanned.1 ∧ sts.filterMap Step.probe? = scanned.2.probed ∧
          sts.filterMap Step.override? = scanned.2.sent := by
  rw [navigate, hn] at h
  obtain ⟨shared, getting, scanning, rfl, hgetting, hscanning⟩ := h.bind_inv
  obtain ⟨hprobes, hoverrides, halone⟩ :=
    append_idle (hgetting.all idle_sharedMatcher) scanning
  rw [hprobes, hoverrides]
  cases shared with
  | error e =>
    obtain ⟨rfl, hr⟩ := hscanning.done_inv
    exact .inl ⟨e, Program.done.inj hr, rfl, rfl⟩
  | ok m =>
    obtain ⟨alone, hanswers⟩ := exists_answersAs (endsAfter_scan ..) hscanning
    refine .inr ⟨m, alone, (servedWithin_sharedMatcher hgetting).append_right scanning,
      halone alone hanswers, ?_⟩
    obtain ⟨hvalue, hprobed, hsent⟩ := run_of_comes (s := .initial .empty .empty)
      (scans_scan ..) hscanning rfl (fun k st hst => by
        rw [show (State.initial .empty .empty).probed.length + k = k from Nat.zero_add k]
        exact hanswers.page k st hst) hanswers.listening
    exact ⟨hvalue.symm, hprobed.symm, hsent.symm⟩

end Navigations

namespace Interleaving

variable {α : Type} {m : Interleaving α} {ts : List Turn} {i : Nat} {p q : Program α} {x : Matcher}

/-- A matcher that is served within the steps of a program is served at a moment at which the program is
under way. -/
theorem exists_moment (hp : m.programs[i]? = some p)
    (hcomes : p.Comes (stepsAt i (m.steps ts)) q) (h : ServedWithin x (stepsAt i (m.steps ts))) :
    ∃ past, past <+: ts ∧ stepsAt i (m.steps past) ≠ [] ∧
      (m.afterTurns past).values[i]? = some none ∧ (m.afterTurns past).state.served = some x := by
  obtain ⟨pre, st, post, hsteps, hpost, hserved⟩ := h
  obtain ⟨past, t, later, rfl, hpast, hstep⟩ := exists_past_of_stepsAt hsteps
  obtain ⟨hstate, -, hplace, -⟩ := state_turn_of_step? hstep
  have hst : st.place = i := by
    have hmem : st ∈ stepsAt i (m.steps (past ++ t :: later)) := by simp [hsteps]
    simpa using (List.mem_filter.1 hmem).2
  -- the steps of the program up to this one
  have hnow : stepsAt i (m.steps (past ++ [t])) = pre ++ [st] := by
    rw [steps_append, stepsAt, List.filter_append, ← stepsAt, hpast, steps, steps, hstep]
    simp [hst]
  refine ⟨past ++ [t], ⟨later, by simp⟩, by simp [hnow], ?_, ?_⟩
  · obtain ⟨now, hprogram, hbefore⟩ := comes_of_afterTurns (past ++ [t]) hp
    rw [hnow] at hbefore
    rw [hsteps, ← List.singleton_append, ← List.append_assoc] at hcomes
    obtain ⟨now', hbefore', hrest⟩ := hcomes.append_inv
    obtain rfl := hbefore.unique hbefore'
    obtain ⟨first, rest, rfl⟩ := List.exists_cons_of_ne_nil hpost
    rw [values, List.getElem?_map, hprogram, Option.map_some, hrest.value?_eq_none]
  · rw [afterTurns_append]
    exact hstate ▸ hserved

end Interleaving

/-! ## Runs -/

/-- Each step that puts a matcher in place is one of a refresh, which publishes the matcher of a policy
or the one without rules, or one of a navigation, which finds none and loads the one of the rules that
were stored at the start. -/
theorem serve_cases (c : Config) (start : State) (jobs : List Job) (ts : List Turn) {st : Step}
    {x : Matcher} (hst : st ∈ (Interleaving.ofPrograms start (jobs.map (Job.program c))).steps ts)
    (hserve : st.action = .serve x) :
    (st.published? jobs = some x ∧ OfPolicy x) ∨
      (st.published? jobs = none ∧ st.state.served = none ∧ start.Stores x) := by
  obtain ⟨pre, post, hsteps⟩ := List.append_of_mem hst
  obtain ⟨past, t, later, rfl, -, hstep⟩ := Interleaving.exists_past hsteps
  obtain ⟨-, hstate, hplace, next, hprogram⟩ := Interleaving.state_turn_of_step? hstep
  obtain ⟨stance, hsharing⟩ := (sharing_start c start jobs).after past
  obtain ⟨job, hjob, hfollows⟩ := hsharing.follow _ _ hprogram
  obtain ⟨env, place, s, a⟩ := st
  obtain rfl : a = .serve x := hserve
  obtain rfl : s = _ := hstate
  obtain rfl : place = t.place := hplace
  obtain ⟨st', hprotocol, -⟩ := hfollows ()
  have hfits := hsharing.fits t.place
  cases job with
  | refresh =>
    refine .inl ⟨published?_of_refresh hjob rfl, ?_⟩
    rcases refreshStep_cases env hprotocol hfits hsharing.current with
      ⟨y, hy, hpolicy, -⟩ | ⟨hserve, -⟩
    · obtain rfl := Action.serve.inj hy
      exact hpolicy
    · exact absurd rfl (hserve x)
  | navigation n =>
    refine .inr ⟨published?_of_navigation hjob, ?_⟩
    rcases navigationStep_cases env hprotocol hfits hsharing.current with
      ⟨y, hy, hserved, hstores, -⟩ | ⟨hserve, -⟩
    · obtain rfl := Action.serve.inj hy
      exact ⟨hserved, hstores⟩
    · exact absurd rfl (hserve x)

/-- However navigations and refreshes take turns, and whatever comes of each of their actions: a
navigation that has got its answer either got no matcher and did nothing, or there is one matcher, served
at some moment while the navigation was under way, such that the answer, the pages asked and the overrides
sent are those of a scan of its rules alone.  The matcher that is served is the latest that a refresh has
put in place by an install or a clear, or, before the first, the one of the start, which a navigation
loads from the store if there was none; and only where none is served is one loaded. -/
theorem navigations_see_one_matcher (c : Config) (start : State) (jobs : List Job)
    (ts : List Turn) :
    let m := Interleaving.ofPrograms start (jobs.map (Job.program c))
    let published := (m.steps ts).filterMap (Step.published? jobs)
    (∀ i n url r, jobs[i]? = some (.navigation n) → n.target? = some url →
      (m.afterTurns ts).values[i]? = some (some (.navigated r)) →
      let own := Interleaving.stepsAt i (m.steps ts)
      (∃ e, r = .error (.store e) ∧ own.filterMap Step.probe? = [] ∧
        own.filterMap Step.override? = []) ∨
      ∃ (x : Matcher) (alone : Surroundings) (past : List Turn),
        past <+: ts ∧ Interleaving.stepsAt i (m.steps past) ≠ [] ∧
        (m.afterTurns past).values[i]? = some none ∧
        (m.afterTurns past).state.served = some x ∧
        alone.AnswersAs own ∧
        let scanned := (scan c n.tab url (x.matching url)).run alone (.initial .empty .empty)
        r = scanned.1 ∧ own.filterMap Step.probe? = scanned.2.probed ∧
          own.filterMap Step.override? = scanned.2.sent) ∧
    start.ServesLatest published (m.afterTurns ts).state ∧
    ∀ st ∈ m.steps ts, ∀ x, st.action = .serve x →
      (st.published? jobs = some x ∧ OfPolicy x) ∨
        (st.published? jobs = none ∧ st.state.served = none ∧ start.Stores x) := by
  intro m published
  refine ⟨fun i n url r hjob hn hvalue => ?_, ?_, fun st hst x => serve_cases c start jobs ts hst⟩
  · intro own
    have hp : m.programs[i]? = some ((Job.navigation n).program c) := by
      show (jobs.map (Job.program c))[i]? = _
      rw [List.getElem?_map, hjob, Option.map_some]
    obtain ⟨q, hq, hcomes⟩ := Interleaving.comes_of_afterTurns ts hp
    have hdone : q = .done (.navigated r) := by
      rw [Interleaving.values, List.getElem?_map, hq, Option.map_some] at hvalue
      cases q with
      | done y => exact congrArg Program.done (Option.some.inj (Option.some.inj hvalue))
      | ask a next => exact absurd (Option.some.inj hvalue) (by simp [Program.value?])
    subst hdone
    obtain ⟨r', sts, post, hown, hnavigate, hanswer⟩ := hcomes.bind_inv
    obtain ⟨rfl, hr⟩ := hanswer.done_inv
    obtain rfl : r = r' := Answer.navigated.inj (Program.done.inj hr)
    rw [List.append_nil] at hown
    have hcases := navigate_of_comes hn hnavigate
    rw [← hown] at hcases
    rcases hcases with hfailed | ⟨x, alone, hserved, hscanned⟩
    · exact .inl hfailed
    · obtain ⟨past, hpast, hbegun, hunderway, hx⟩ :=
        Interleaving.exists_moment hp hcomes hserved
      exact .inr ⟨x, alone, past, hpast, hbegun, hunderway, hx, hscanned⟩
  · obtain ⟨stance, hsharing⟩ := (sharing_start c start jobs).after ts
    exact hsharing.current.latest

/-- Where a refresh installs rules after a navigation has found no matcher and before it loads one, the
navigation is matched against the new rules and not against those that were stored. -/
example :
    let c : Config := { Config.default with managedPolicyUrl := some "https://policy.example" }
    let env : Surroundings :=
      { Surroundings.offline "no route" ⟨0, 0⟩ with
        source := fun _ _ => .ok "urls: [\x7burl: 'a*', html: new\x7d]" }
    let stored := Cell.redirectRules.encode [⟨"a*", ⟨some "old", none⟩, ⟨none, none⟩⟩]
    let m := Interleaving.ofPrograms (.initial (.ofList [("redirectRules", stored)]) .empty)
      ([Job.navigation (.loading 1 "abc"), .refresh].map (Job.program c))
    let places := List.replicate 3 0 ++ (List.replicate 60 1 ++ List.replicate 20 0)
    (m.turns env places).state.sent = [⟨1, "data:text/html;charset=utf-8,new"⟩] := by
  decide +kernel

end NavPolicy.Agent
