import NavPolicy.Agent.Loop
import NavPolicy.Proofs.Agent.Standing
import NavPolicy.Proofs.Policy.Meaning

/-!
# Navigations and password checks among others

While all other programs keep the standing, a navigation is answered as it would be alone: it gets
the same matcher, whoever shares it first, and sends the tab to the first candidate that is usable
(`owes_navigate`).  That needs pages that answer always or never, because several navigations may ask
the same page in any order.  A password is checked against the same lock at any time
(`owes_verifyCommand`).
-/

namespace NavPolicy.Agent

open Program (perform)

variable {env : Surroundings} {x : Enforcement}

/-! ## Navigations -/

/-- What a look at the shared matcher shows leads navigations to the matcher that they get. -/
theorem owes_served : (perform .served).Owes env x (fun served =>
    Enforcement.matcher env { x with served } = x.matcher env) [] := by
  refine .perform fun s hs => ⟨hs, rfl, ?_⟩
  rw [← hs.matcher, Enforcement.matcher, Enforcement.matcher, Enforcement.read_congr hs.texts]
  rfl

/-- Loading gives the matcher that navigations get. -/
theorem owes_loadMatcher : loadMatcher.Owes env x (· = x.matcher env) [] := by
  refine owes_acquire.bind_true fun _ => ?_
  refine owes_served.bind_nil fun served hserved => ?_
  have hend (m : Except StoreError Matcher) (hm : m = x.matcher env) :
      (perform (.release .matcher) >>= fun _ => pure m).Owes env x (· = x.matcher env) [] :=
    owes_release.bind_true fun _ => .pure hm
  cases served with
  | some m => exact hend _ hserved
  | none =>
    have hrules : storedRedirectRules.Owes env x
        (· = (x.read env .redirectRules).map fun rules => rules.getD []) [] :=
      (owes_readCell env x .redirectRules).bind_eq (.pure rfl)
    refine hrules.bind_eq ?_
    change (x.read env .redirectRules).map _ = x.matcher env at hserved
    cases hread : x.read env .redirectRules with
    | error e =>
      rw [hread] at hserved
      exact hend _ hserved
    | ok rules =>
      rw [hread] at hserved
      refine (Program.Owes.of_onlyRecords (onlyRecords_notes _)).bind_true fun _ => ?_
      refine (owes_serve hserved.symm).bind_eq ?_
      exact hend _ hserved

/-- Navigations get their matcher whether it is shared already or not. -/
theorem owes_sharedMatcher : sharedMatcher.Owes env x (· = x.matcher env) [] := by
  refine owes_acquire.bind_true fun _ => ?_
  refine owes_served.bind_nil fun served hserved => ?_
  refine owes_release.bind_true fun _ => ?_
  cases served with
  | some m => exact .pure hserved
  | none => exact owes_loadMatcher

/-- A browser that listens is owed the override that it is sent. -/
theorem owes_redirect (hlistening : env.listening = true) (tab : Int32) (target : String) :
    (perform (.redirect ⟨tab, target⟩)).Owes env x (· = true) [⟨tab, target⟩] := by
  intro s hs
  rw [Action.answer, if_pos hlistening]
  exact ⟨⟨hs.texts, hs.engine, hs.matcher⟩, [⟨tab, target⟩], [], rfl, rfl, rfl, rfl⟩

section Pages

variable {live : String → Bool} (hlive : ∀ count url, env.answers count url = live url)

include hlive

/-- A page that always or never answers does so. -/
theorem owes_probe (url : String) (milliseconds : Nat) :
    (perform (.probe url milliseconds)).Owes env x
      (fun answer => answer = .ok () ↔ live url = true) [] := by
  refine .perform fun s hs => ⟨(s.enforcement.standsAs_probing [url]).trans hs, rfl, ?_⟩
  rw [← hlive s.probed.length url, Surroundings.answers, decide_eq_true_iff, Action.answer]
  cases env.page s.probed.length url with
  | none => simp
  | some answer => simp

/-- Candidates are tried to the first that is usable. -/
theorem owes_resolve (c : Config) (candidates : List Candidate) :
    (resolve c candidates).Owes env x
      (· = candidates.findSome? (Meaning.usable? live)) [] := by
  induction candidates with
  | nil => exact .pure rfl
  | cons candidate rest ih =>
    cases candidate with
    | inline url => exact .pure rfl
    | remote url =>
      rw [List.findSome?_cons, Meaning.usable?]
      refine (owes_probe hlive url _).bind_nil fun answer hanswer => ?_
      cases answer with
      | ok u =>
        rw [if_pos (hanswer.1 rfl)]
        exact .pure rfl
      | error e =>
        rw [if_neg fun h => by simpa using hanswer.2 h]
        exact owes_note.bind_true fun _ => ih

/-- A scan sends the tab to the first usable candidate of the rules, if there is one. -/
theorem owes_scan (hlistening : env.listening = true) (c : Config) (tab : Int32) (url : String)
    (rules : List RedirectRule) :
    (scan c tab url rules).Owes env x (fun _ => True)
      (((candidatesOf rules).findSome? (Meaning.usable? live)).map (Override.mk tab)).toList := by
  induction rules with
  | nil => exact .pure trivial
  | cons rule rules ih =>
    refine owes_note.bind_true fun _ => (owes_resolve hlive c rule.candidates).bind_eq ?_
    rw [candidatesOf, List.flatMap_cons, List.findSome?_append]
    cases rule.candidates.findSome? (Meaning.usable? live) with
    | none => exact ih
    | some target =>
      refine owes_note.bind_true fun _ => ?_
      show Program.Owes env x _ _ ([⟨tab, target⟩] ++ [])
      refine (owes_redirect hlistening tab target).bind fun sent hsent => ?_
      subst hsent
      exact .pure trivial

/-- The override that a navigation is answered with, if pages answer always or never. -/
def Enforcement.overrides (env : Surroundings) (live : String → Bool) (x : Enforcement)
    (n : Navigation) : List Override :=
  match n.target?, x.matcher env with
  | some url, .ok m =>
    (((candidatesOf (m.matching url)).findSome? (Meaning.usable? live)).map (Override.mk n.tab)).toList
  | _, _ => []

/-- A navigation owes the override that it is answered with. -/
theorem owes_navigate (hlistening : env.listening = true) (c : Config) (n : Navigation) :
    (navigate c n).Owes env x (fun _ => True) (x.overrides env live n) := by
  rw [navigate, Enforcement.overrides]
  cases n.target? with
  | none => exact .pure trivial
  | some url =>
    refine owes_sharedMatcher.bind_eq ?_
    cases x.matcher env with
    | error e => exact .pure trivial
    | ok m => exact owes_scan hlive hlistening c n.tab url _

end Pages

/-! ## Passwords -/

/-- Whether a reply answers a command, where passwords are checked in a state. -/
def Command.IsAnswer (env : Surroundings) (s : State) : Command → Reply → Prop
  | verifyPassword password, reply =>
    reply = .verified (((Agent.verifyPassword password).run env s).1 = .ok true)
  | status, reply => ∃ answer, reply = .status answer
  | _, _ => False

/-- A password check gives what a check gave before. -/
theorem owes_verifyPassword (s : State) (password : String) :
    (verifyPassword password).Owes env s.enforcement
      (· = ((verifyPassword password).run env s).1) [] := by
  have hlock : storedLock.Owes env s.enforcement (· = _) [] :=
    (owes_readCell env s.enforcement .accessLock).bind_eq (.pure rfl)
  have hanswer : ∃ v, (verifyPassword password).Owes env s.enforcement (· = v) [] := by
    cases h : (s.enforcement.read env .accessLock).map fun lock => lock.getD AccessLock.unlocked with
    | error e =>
      rw [h] at hlock
      exact ⟨_, hlock.bind_eq (.pure rfl)⟩
    | ok lock =>
      rw [h] at hlock
      exact ⟨_, hlock.bind_eq (.pure rfl)⟩
  obtain ⟨v, hv⟩ := hanswer
  rw [hv.eq_run]
  exact hv

/-- A password is answered as it was before. -/
theorem owes_verifyCommand (s : State) (password : String) :
    (verifyCommand password).Owes env s.enforcement
      (Command.IsAnswer env s (.verifyPassword password)) [] := by
  refine (owes_verifyPassword s password).bind_eq ?_
  cases h : ((verifyPassword password).run env s).1 with
  | ok ok =>
    refine .pure ?_
    rw [Command.IsAnswer, h]
    cases ok <;> rfl
  | error e =>
    refine owes_note.bind_true fun _ => .pure ?_
    rw [Command.IsAnswer, h]
    rfl

end NavPolicy.Agent
