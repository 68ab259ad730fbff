import NavPolicy.Proofs.Agent.Accesses

/-!
# What navigations do

A navigation scans the rules that match it, and in each of them the candidates, to the first that is
usable.  That comes to the same as walking one list, the candidates of all those rules one after the
other (`gives_scan`), so the whole scan is described by `Candidate.firstUsable`.
-/

namespace NavPolicy

namespace Candidate

variable (answers : Nat → String → Bool)

/-- A walk depends on the answers from its start on alone. -/
theorem firstUsable_congr {answers answers' : Nat → String → Bool} {count count' : Nat}
    (h : ∀ i url, answers (count + i) url = answers' (count' + i) url) (candidates : List Candidate) :
    firstUsable answers count candidates = firstUsable answers' count' candidates := by
  induction candidates generalizing count count' with
  | nil => rfl
  | cons candidate rest ih =>
    cases candidate with
    | inline url => rfl
    | remote url =>
      have hlater : ∀ i vrl, answers (count + 1 + i) vrl = answers' (count' + 1 + i) vrl := by
        intro i vrl
        rw [Nat.add_assoc, Nat.add_assoc]
        exact h (1 + i) vrl
      have hnow : answers count url = answers' count' url := h 0 url
      rw [firstUsable, firstUsable, hnow, ih hlater]

/-- A walk along two lists ends in the first if there is a target. -/
theorem firstUsable_append_of_some {xs : List Candidate} (ys : List Candidate) {count : Nat}
    {target : String} (h : (firstUsable answers count xs).target = some target) :
    firstUsable answers count (xs ++ ys) = firstUsable answers count xs := by
  induction xs generalizing count with
  | nil => exact absurd h (by simp [firstUsable])
  | cons candidate xs ih =>
    cases candidate with
    | inline url => rfl
    | remote url =>
      rw [List.cons_append, firstUsable, firstUsable]
      rw [firstUsable] at h
      split
      · rfl
      · next hanswers =>
        rw [if_neg hanswers] at h
        rw [ih h]

/-- A walk along two lists goes on with the second if there is no target in the first. -/
theorem firstUsable_append_of_none {xs : List Candidate} (ys : List Candidate) {count : Nat}
    (h : (firstUsable answers count xs).target = none) :
    let tried := (firstUsable answers count xs).tried
    (firstUsable answers count (xs ++ ys)).target =
        (firstUsable answers (count + tried.length) ys).target ∧
      (firstUsable answers count (xs ++ ys)).tried =
        tried ++ (firstUsable answers (count + tried.length) ys).tried := by
  induction xs generalizing count with
  | nil => exact ⟨rfl, rfl⟩
  | cons candidate xs ih =>
    cases candidate with
    | inline url => exact absurd h (by simp [firstUsable])
    | remote url =>
      rw [firstUsable] at h
      split at h
      · exact absurd h (by simp)
      · next hanswers =>
        obtain ⟨htarget, htried⟩ := ih h
        rw [List.cons_append, firstUsable, firstUsable, if_neg hanswers, if_neg hanswers]
        dsimp only
        rw [htarget, htried, List.length_cons, Nat.add_right_comm]
        exact ⟨rfl, rfl⟩

end Candidate

namespace Agent

open Program (perform)

variable (env : Surroundings) (x : Enforcement)

/-! ## The shared matcher -/

/-- The matcher that a navigation gets. -/
def Enforcement.matcher : Except StoreError Matcher :=
  match x.served with
  | some m => .ok m
  | none => (x.read env .redirectRules).map fun rules => .ofRules (rules.getD [])

/-- A matcher that navigations get is shared from then on. -/
def Enforcement.loaded : Enforcement :=
  match x.matcher env with
  | .ok m => { x with served := some m }
  | .error _ => x

variable {env x}

/-- Navigations get the shared matcher where there is one. -/
theorem matcher_of_served {m : Matcher} (h : x.served = some m) : x.matcher env = .ok m := by
  rw [Enforcement.matcher, h]

/-- Where there is a shared matcher it stays. -/
theorem loaded_of_served {m : Matcher} (h : x.served = some m) : x.loaded env = x := by
  rw [Enforcement.loaded, matcher_of_served h]
  dsimp only
  rw [← h]

/-- The shared matcher is looked at. -/
theorem gives_served : (perform .served).Gives env x x.served x := by
  intro s hs
  subst hs
  exact ⟨rfl, rfl⟩

/-- The shared matcher is replaced. -/
theorem gives_serve (m : Matcher) :
    (perform (.serve m)).Gives env x () { x with served := some m } := by
  intro s hs
  subst hs
  exact ⟨rfl, rfl⟩

/-- The stored redirect rules are those under their key; without a text there are none. -/
theorem gives_storedRedirectRules : storedRedirectRules.Gives env x
    ((x.read env .redirectRules).map fun rules => rules.getD []) x :=
  .bind (gives_readCell env x .redirectRules) (.pure _ x)

/-- Loading gives the shared matcher, and shares one if there is none. -/
theorem gives_loadMatcher : loadMatcher.Gives env x (x.matcher env) (x.loaded env) := by
  refine leads_acquire.bind_gives fun _ => .bind gives_served ?_
  cases hserved : x.served with
  | some m =>
    rw [matcher_of_served hserved, loaded_of_served hserved]
    exact .bind (.pure _ x) (leads_release.bind_gives fun _ => .pure _ x)
  | none =>
    refine .bind gives_storedRedirectRules ?_
    rw [Enforcement.loaded, Enforcement.matcher, hserved]
    cases x.read env .redirectRules with
    | error e => exact .bind (.pure _ x) (leads_release.bind_gives fun _ => .pure _ x)
    | ok rules =>
      refine leads_notes.bind_gives fun _ => ?_
      refine .bind (gives_serve _) (.bind (.pure _ _) ?_)
      exact leads_release.bind_gives fun _ => .pure _ _

/-- Navigations get the shared matcher, and share one if there is none. -/
theorem gives_sharedMatcher (env : Surroundings) (x : Enforcement) :
    sharedMatcher.Gives env x (x.matcher env) (x.loaded env) := by
  refine leads_acquire.bind_gives fun _ => .bind gives_served ?_
  refine leads_release.bind_gives fun _ => ?_
  cases hserved : x.served with
  | some m =>
    rw [matcher_of_served hserved, loaded_of_served hserved]
    exact .pure _ x
  | none => exact gives_loadMatcher

/-! ## Targets -/

/-- Whether a page answers, when so many were asked before. -/
def Surroundings.answers (env : Surroundings) (count : Nat) (url : String) : Bool :=
  env.page count url = some (.ok ())

/-- Pages are asked. -/
def Enforcement.probing (x : Enforcement) (urls : List String) : Enforcement :=
  { x with probed := x.probed ++ urls }

/-- A page that is asked answers or does not. -/
theorem gives_probe (url : String) (milliseconds : Nat) :
    (perform (.probe url milliseconds)).Gives env x
      ((env.page x.probed.length url).getD (.error (.silent milliseconds))) (x.probing [url]) := by
  intro s hs
  subst hs
  exact ⟨rfl, rfl⟩

/-- Asking pages and then others is asking all of them. -/
theorem probing_probing (urls vrls : List String) :
    (x.probing urls).probing vrls = x.probing (urls ++ vrls) := by
  rw [Enforcement.probing, Enforcement.probing, Enforcement.probing, List.append_assoc]

/-- How many pages were asked after some more are. -/
theorem length_probed_probing (urls : List String) :
    (x.probing urls).probed.length = x.probed.length + urls.length := List.length_append

/-- A page that does not answer is one whose answer is an error. -/
theorem exists_error_of_not_answers {count : Nat} {url : String}
    (h : env.answers count url ≠ true) (milliseconds : Nat) :
    ∃ e, (env.page count url).getD (.error (.silent milliseconds)) = .error e := by
  rw [Surroundings.answers, ne_eq, decide_eq_true_iff] at h
  cases hpage : env.page count url with
  | none => exact ⟨_, rfl⟩
  | some answer =>
    cases answer with
    | error e => exact ⟨e, rfl⟩
    | ok u => exact absurd hpage h

/-- Candidates are tried as they are walked. -/
theorem gives_resolve (c : Config) (candidates : List Candidate) :
    (resolve c candidates).Gives env x
      (Candidate.firstUsable env.answers x.probed.length candidates).target
      (x.probing (Candidate.firstUsable env.answers x.probed.length candidates).tried) := by
  induction candidates generalizing x with
  | nil =>
    rw [Candidate.firstUsable, Enforcement.probing, List.append_nil]
    exact .pure _ x
  | cons candidate rest ih =>
    cases candidate with
    | inline url =>
      rw [Candidate.firstUsable, Enforcement.probing, List.append_nil]
      exact .pure _ x
    | remote url =>
      refine .bind (gives_probe url _) ?_
      rw [Candidate.firstUsable]
      by_cases hanswers : env.answers x.probed.length url = true
      · rw [if_pos hanswers]
        rw [Surroundings.answers, decide_eq_true_iff] at hanswers
        rw [hanswers]
        exact .pure _ _
      · rw [if_neg hanswers]
        obtain ⟨e, he⟩ := exists_error_of_not_answers hanswers c.probeTimeoutMs.toNat
        rw [he]
        have hrest := ih (x := x.probing [url])
        rw [probing_probing] at hrest
        rw [length_probed_probing] at hrest
        exact leads_note.bind_gives fun _ => hrest

/-! ## Scans -/

/-- The tab is sent to a target, if there is one and the browser listens. -/
def Enforcement.sending (env : Surroundings) (tab : Int32) (target : Option String)
    (x : Enforcement) : Enforcement :=
  match target with
  | some url => if env.listening then { x with sent := x.sent ++ [⟨tab, url⟩] } else x
  | none => x

/-- A browser is sent one override where there is a target and it listens, and else none. -/
theorem sending_eq (tab : Int32) (target : Option String) :
    x.sending env tab target =
      { x with
        sent := x.sent ++ if env.listening then (target.map (Override.mk tab)).toList else [] } := by
  cases target with
  | none => rw [Option.map_none, Option.toList_none, ite_self, List.append_nil, Enforcement.sending]
  | some url =>
    rw [Enforcement.sending]
    cases env.listening with
    | true => rfl
    | false =>
      rw [if_neg Bool.false_ne_true, if_neg Bool.false_ne_true, List.append_nil]

/-- The answer to a navigation that has a target or none. -/
def Surroundings.delivered (env : Surroundings) :
    Option String → Except Error (Option String)
  | some url => if env.listening then .ok (some url) else .error .sinkClosed
  | none => .ok none

/-- A browser that listens lets every target be the answer. -/
theorem delivered_of_listening (h : env.listening = true) (target : Option String) :
    env.delivered target = .ok target := by
  cases target with
  | none => rfl
  | some url => exact if_pos h

/-- The candidates that a navigation may come to, in order. -/
def candidatesOf (rules : List RedirectRule) : List Candidate :=
  rules.flatMap RedirectRule.candidates

/-- An override is sent if the browser listens. -/
theorem gives_redirect (tab : Int32) (target : String) :
    (perform (.redirect ⟨tab, target⟩)).Gives env x env.listening
      (x.sending env tab (some target)) := by
  intro s hs
  subst hs
  rw [Program.run_perform, Action.answer, Enforcement.sending]
  cases env.listening <;> exact ⟨rfl, rfl⟩

/-- A scan walks the candidates of all rules and sends the tab to the first that is usable. -/
theorem gives_scan (c : Config) (tab : Int32) (url : String) (rules : List RedirectRule) :
    let walk := Candidate.firstUsable env.answers x.probed.length (candidatesOf rules)
    (scan c tab url rules).Gives env x (env.delivered walk.target)
      ((x.probing walk.tried).sending env tab walk.target) := by
  induction rules generalizing x with
  | nil =>
    have hempty : x.probing [] = x := by rw [Enforcement.probing, List.append_nil]
    intro walk
    show (scan c tab url []).Gives env x (.ok none) (x.probing [])
    rw [hempty]
    exact .pure _ x
  | cons rule rules ih =>
    intro walk
    refine leads_note.bind_gives fun _ => .bind (gives_resolve c rule.candidates) ?_
    cases htarget : (Candidate.firstUsable env.answers x.probed.length rule.candidates).target with
    | some target =>
      -- the walk ends in this rule, and the scan does not reach the later ones
      have hwalk : walk = Candidate.firstUsable env.answers x.probed.length rule.candidates :=
        Candidate.firstUsable_append_of_some env.answers (candidatesOf rules) htarget
      rw [hwalk, htarget, Surroundings.delivered]
      refine leads_note.bind_gives fun _ => .bind (gives_redirect tab target) ?_
      split <;> exact .pure _ _
    | none =>
      -- the walk goes on in the later rules, with the pages of this one asked
      obtain ⟨hwalktarget, hwalktried⟩ : walk.target = _ ∧ walk.tried = _ :=
        Candidate.firstUsable_append_of_none env.answers (candidatesOf rules) htarget
      rw [hwalktarget, hwalktried, ← probing_probing, ← length_probed_probing]
      exact ih

/-! ## What navigations do to the world -/

/-- Whether an action is one of those that scan rules. -/
def Action.Scans : Action → Prop
  | probe _ _ | redirect _ | note _ => True
  | _ => False

/-- What holds of all actions that scan rules holds of an action that is one. -/
theorem Action.Scans.of {P : Action → Prop} (hprobe : ∀ url ms, P (.probe url ms))
    (hredirect : ∀ o, P (.redirect o)) (hnote : ∀ n, P (.note n)) {a : Action} (h : a.Scans) :
    P a := by
  cases a with
  | probe url ms => exact hprobe url ms
  | redirect o => exact hredirect o
  | note n => exact hnote n
  | _ => exact h.elim

theorem scans_resolve (c : Config) (candidates : List Candidate) :
    (resolve c candidates).All Action.Scans := by
  induction candidates with
  | nil => exact .pure _
  | cons candidate rest ih =>
    cases candidate with
    | inline url => exact .pure _
    | remote url =>
      refine .bind (.perform trivial) fun answer => ?_
      cases answer with
      | ok u => exact .pure _
      | error e => exact .bind (.perform trivial) fun _ => ih

theorem scans_scan (c : Config) (tab : Int32) (url : String) (rules : List RedirectRule) :
    (scan c tab url rules).All Action.Scans := by
  induction rules with
  | nil => exact .pure _
  | cons rule rules ih =>
    refine .bind (.perform trivial) fun _ => .bind (scans_resolve c _) fun target => ?_
    cases target with
    | none => exact ih
    | some target =>
      refine .bind (.perform trivial) fun _ => .bind (.perform trivial) fun sent => ?_
      cases sent <;> exact .pure _

/-- Getting the shared matcher takes reads and notices, and is done on the matcher itself. -/
theorem all_sharedMatcher {P : Action → Prop} (hread : ∀ key, P (.read key))
    (hnote : ∀ n, P (.note n)) (hserved : P .served) (hserve : ∀ m, P (.serve m))
    (hacquire : P (.acquire .matcher)) (hrelease : P (.release .matcher)) : sharedMatcher.All P := by
  refine .bind (.perform hacquire) fun _ => .bind (.perform hserved) fun served => ?_
  refine .bind (.perform hrelease) fun _ => ?_
  cases served with
  | some m => exact .pure _
  | none =>
    refine .bind (.perform hacquire) fun _ => .bind (.perform hserved) fun served => ?_
    have hend (m : Except StoreError Matcher) :
        (Program.perform (.release .matcher) >>= fun _ => pure m).All P :=
      .bind (.perform hrelease) fun _ => .pure m
    cases served with
    | some m => exact .bind (.pure _) hend
    | none =>
      refine .bind (reads_storedRedirectRules.mono fun _ => Action.Reads.of hread) fun rules => ?_
      cases rules with
      | error e => exact .bind (.pure _) hend
      | ok rules =>
        refine .bind (.notes hnote _) fun _ => ?_
        exact .bind (.perform (hserve _)) fun _ => .bind (.pure _) hend

/-- Whether an action is one of those of a navigation. -/
def Action.Navigates : Action → Prop
  | read _ | served | serve _ | acquire _ | release _ => True
  | a => a.Scans

/-- A navigation gets the shared matcher and scans rules. -/
theorem navigates_navigate (c : Config) (n : Navigation) :
    (navigate c n).All Action.Navigates := by
  rw [navigate]
  split
  · exact .pure _
  · have hshared : sharedMatcher.All Action.Navigates :=
      all_sharedMatcher (fun _ => trivial) (fun _ => trivial) trivial (fun _ => trivial) trivial trivial
    refine .bind hshared fun m => ?_
    cases m with
    | error e => exact .pure _
    | ok m =>
      exact (scans_scan c _ _ _).mono fun _ =>
        Action.Scans.of (fun _ _ => trivial) (fun _ => trivial) fun _ => trivial

/-! ## Navigations -/

/-- A navigation that is none to act on does nothing. -/
theorem gives_navigate_of_target?_eq_none (env : Surroundings) (c : Config) {n : Navigation}
    (h : n.target? = none) :
    (navigate c n).Gives env x (.ok none) x := by
  rw [navigate, h]
  exact .pure _ x

/-- Without a matcher a navigation does nothing. -/
theorem gives_navigate_of_matcher_error (c : Config) {n : Navigation} {url : String}
    {e : StoreError} (h : n.target? = some url) (hmatcher : x.matcher env = .error e) :
    (navigate c n).Gives env x (.error (.store e)) x := by
  have hshared := gives_sharedMatcher env x
  rw [Enforcement.loaded, hmatcher] at hshared
  rw [navigate, h]
  exact .bind hshared (.pure _ x)

/-- With a matcher a navigation walks the candidates of the rules that match. -/
theorem gives_navigate_of_matcher (c : Config) {n : Navigation} {url : String} {m : Matcher}
    (h : n.target? = some url) (hmatcher : x.matcher env = .ok m) :
    let walk :=
      Candidate.firstUsable env.answers x.probed.length (candidatesOf (m.matching url))
    (navigate c n).Gives env x (env.delivered walk.target)
      ((({ x with served := some m }).probing walk.tried).sending env n.tab walk.target) := by
  have hshared := gives_sharedMatcher env x
  rw [Enforcement.loaded, hmatcher] at hshared
  rw [navigate, h]
  exact .bind hshared (gives_scan c n.tab url (m.matching url))

/-- A navigation leaves all as it was, or shares a matcher, asks pages and sends the tab somewhere. -/
theorem enforcement_navigate_cases (env : Surroundings) (c : Config) (n : Navigation) (s : State) :
    ((navigate c n).run env s).2.enforcement = s.enforcement ∨
      ∃ m urls target, s.enforcement.matcher env = .ok m ∧
        ((navigate c n).run env s).2.enforcement =
          (({ s.enforcement with served := some m }).probing urls).sending env n.tab target := by
  cases hn : n.target? with
  | none => exact .inl (gives_navigate_of_target?_eq_none env c hn s rfl).2
  | some url =>
    cases hmatcher : s.enforcement.matcher env with
    | error e => exact .inl (gives_navigate_of_matcher_error c hn hmatcher s rfl).2
    | ok m => exact .inr ⟨m, _, _, rfl, (gives_navigate_of_matcher c hn hmatcher s rfl).2⟩

end Agent

end NavPolicy
