import NavPolicy.Proofs.Agent.Navigating

/-!
# The protocol of the shared matcher

A program follows a protocol if each of its actions, whatever it is answered, is one that the protocol
has for the stance the program is in, and leads to the next stance (`Program.Follows`).  Refreshes and
navigations each follow a protocol for the shared matcher (`follows_refresh`, `follows_navigate`): a
refresh replaces the matcher before it touches the stored redirect rules, and a navigation puts one in
place only after it found none and while it holds the right to do so.
-/

namespace NavPolicy.Agent

open Program (perform notes)

/-! ## Following a protocol -/

/-- Every action may be answered. -/
theorem Action.nonempty_answer : (a : Action) → Nonempty a.Answer
  | read _ => ⟨.ok none⟩
  | write _ _ | erase _ | update _ | probe _ _ => ⟨.ok ()⟩
  | listRules => ⟨.ok []⟩
  | fetch _ => ⟨.ok ""⟩
  | redirect _ => ⟨true⟩
  | now => ⟨(⟨0, 0⟩ : Time.Instant)⟩
  | served => ⟨none⟩
  | note _ | serve _ | acquire _ | release _ => ⟨()⟩

/-- A protocol: the stances that an action with its answer leads to from a stance. -/
abbrev Protocol (σ : Type) := σ → (a : Action) → a.Answer → σ → Prop

namespace Program

variable {σ α β : Type} {step : Protocol σ}

/-- Whether a program follows a protocol from a stance on, whatever its actions are answered, and ends
with a value and in a stance that suit each other. -/
def Follows (step : Protocol σ) : Program α → σ → (α → σ → Prop) → Prop
  | done x, st, Q => Q x st
  | ask a next, st, Q => ∀ answer, ∃ st', step st a answer st' ∧ (next answer).Follows step st' Q

namespace Follows

variable {p : Program α} {f : α → Program β} {st st' : σ} {Q R : α → σ → Prop} {S : β → σ → Prop}

/-- A program that does nothing follows every protocol. -/
theorem pure {x : α} (h : Q x st) : (Pure.pure x : Program α).Follows step st Q := h

/-- A single action follows a protocol that has it. -/
theorem perform {a : Action} {Q : a.Answer → σ → Prop}
    (h : ∀ answer, ∃ st', step st a answer st' ∧ Q answer st') :
    (Program.perform a).Follows step st Q := h

/-- A composed program follows a protocol part by part. -/
theorem bind (hp : p.Follows step st Q) (hf : ∀ x st', Q x st' → (f x).Follows step st' S) :
    (p >>= f).Follows step st S := by
  induction p generalizing st with
  | done x => exact hf x st hp
  | ask a next ih =>
    intro answer
    obtain ⟨st', hstep, hnext⟩ := hp answer
    exact ⟨st', hstep, ih answer hnext⟩

/-- A composed program whose first part leads to one stance only. -/
theorem bind_eq (hp : p.Follows step st fun _ t => t = st')
    (hf : ∀ x, (f x).Follows step st' S) : (p >>= f).Follows step st S :=
  hp.bind fun x _ ht => ht ▸ hf x

/-- What a program ends with may be told less exactly. -/
theorem mono (hp : p.Follows step st Q) (h : ∀ x st', Q x st' → R x st') : p.Follows step st R := by
  induction p generalizing st with
  | done x => exact h x st hp
  | ask a next ih =>
    intro answer
    obtain ⟨st', hstep, hnext⟩ := hp answer
    exact ⟨st', hstep, ih answer hnext⟩

/-- Actions that a stance allows and that do not change it. -/
theorem of_all {P : Action → Prop} (hp : p.All P)
    (h : ∀ a, P a → ∀ answer, step st a answer st) : p.Follows step st fun _ t => t = st := by
  induction p with
  | done x => exact rfl
  | ask a next ih => exact fun answer => ⟨st, h a hp.1 answer, ih answer (hp.2 answer)⟩

/-- What holds of all actions of a protocol holds of those of a program that follows it. -/
theorem all {P : Action → Prop} (hp : p.Follows step st Q)
    (h : ∀ st a answer st', step st a answer st' → P a) : p.All P := by
  induction p generalizing st with
  | done x => trivial
  | ask a next ih =>
    refine ⟨?_, fun answer => ?_⟩
    · obtain ⟨answer⟩ := a.nonempty_answer
      obtain ⟨st', hstep, -⟩ := hp answer
      exact h st a answer st' hstep
    · obtain ⟨st', -, hnext⟩ := hp answer
      exact ih answer hnext

end Follows

end Program

/-! ## Stances towards the shared matcher -/

/-- How a program stands towards the shared matcher. -/
inductive Stance where
  /-- It has nothing to do with the matcher. -/
  | apart
  /-- It holds the right to load or replace the matcher. -/
  | holding
  /-- It holds the right and has found no matcher. -/
  | missing
  /-- It holds the right, has found no matcher, and this text under the key of the redirect rules. -/
  | loading (text : Option String)
  /-- It holds the right and has replaced the matcher. -/
  | replaced
  /-- It has replaced the matcher and given the right back. -/
  | settled

/-- Whether the right to load or replace the matcher is held. -/
def Stance.Holds : Stance → Prop
  | holding | missing | loading _ | replaced => True
  | apart | settled => False

namespace Action

/-- Whether an action of a refresh is none on the shared matcher. -/
def Aside : Action → Prop
  | acquire r | release r => r = .refresh
  | served | serve _ | probe _ _ | redirect _ => False
  | _ => True

/-- Whether an action leaves the stored redirect rules alone. -/
def SparesRedirects : Action → Prop
  | write key _ | erase key => key ≠ Cell.redirectRules.key
  | _ => True

/-- An action that keeps a record is none on the shared matcher. -/
theorem Records.aside {a : Action} (h : a.Records) : a.Aside := by
  cases a <;> first | exact trivial | exact h.elim

/-- An action that keeps a record leaves the stored redirect rules alone. -/
theorem Records.sparesRedirects {a : Action} (h : a.Records) : a.SparesRedirects := by
  cases a with
  | write key text =>
    rintro rfl
    exact absurd (show Cell.redirectRules.key ∈ recordKeys from h) (by decide)
  | erase key =>
    rintro rfl
    exact absurd (show Cell.redirectRules.key ∈ recordKeys from h) (by decide)
  | _ => trivial

end Action

/-- Whether a matcher is one that a refresh puts in place: the one without rules, or the one of a
policy. -/
def OfPolicy (m : Matcher) : Prop :=
  m = .empty ∨ ∃ text doc, PolicyDocument.ofText text = .ok doc ∧
    m = .ofRules doc.compile.redirectRules

/-- The protocol of refreshes: the matcher is replaced once at most, and the stored redirect rules are
left alone until then. -/
inductive RefreshStep : Protocol Stance
  | before {a : Action} (answer : a.Answer) (haside : a.Aside) (hspares : a.SparesRedirects) :
      RefreshStep .apart a answer .apart
  | take : RefreshStep .apart (.acquire .matcher) () .holding
  | replace {m : Matcher} (hm : OfPolicy m) : RefreshStep .holding (.serve m) () .replaced
  | letGo : RefreshStep .replaced (.release .matcher) () .settled
  | after {a : Action} (answer : a.Answer) (haside : a.Aside) :
      RefreshStep .settled a answer .settled

/-- The protocol of navigations: a matcher is put in place by the one who holds the right to, has found
none, and has read the rules under their key since. -/
inductive NavigationStep : Protocol Stance
  | scan {a : Action} (answer : a.Answer) (hscans : a.Scans) : NavigationStep .apart a answer .apart
  | take : NavigationStep .apart (.acquire .matcher) () .holding
  | find (m : Matcher) : NavigationStep .holding .served (some m) .holding
  | miss : NavigationStep .holding .served none .missing
  | read (text : Option String) :
      NavigationStep .missing (.read Cell.redirectRules.key) (.ok text) (.loading text)
  | fail (e : StoreError) :
      NavigationStep .missing (.read Cell.redirectRules.key) (.error e) .missing
  | note (text : Option String) (n : Notice) :
      NavigationStep (.loading text) (.note n) () (.loading text)
  | share {text : Option String} {rules : Option (List RedirectRule)}
      (hrules : Cell.redirectRules.decode text = .ok rules) :
      NavigationStep (.loading text) (.serve (.ofRules (rules.getD []))) () .holding
  | letGo {st : Stance} (hholds : st.Holds) : NavigationStep st (.release .matcher) () .apart

/-! ## Refreshes -/

section Refreshes

variable {α : Type} {p : Program α}

/-- What keeps records may come before the matcher is replaced. -/
theorem follows_of_records (hp : p.All Action.Records) :
    p.Follows RefreshStep .apart fun _ st => st = .apart :=
  .of_all hp fun _ ha answer => .before answer ha.aside ha.sparesRedirects

/-- What has nothing to do with the matcher may come after it was replaced. -/
theorem follows_of_aside (hp : p.All Action.Aside) :
    p.Follows RefreshStep .settled fun _ st => st = .settled :=
  .of_all hp fun _ ha answer => .after answer ha

/-- An action that has nothing to do with the matcher or the stored redirect rules may come before the
matcher is replaced. -/
theorem follows_perform {a : Action} (haside : a.Aside) (hspares : a.SparesRedirects) :
    (perform a).Follows RefreshStep .apart fun _ st => st = .apart :=
  .perform fun answer => ⟨.apart, .before answer haside hspares, rfl⟩

/-- Replacing the matcher settles it. -/
theorem follows_setMatcher {m : Matcher} (hm : OfPolicy m) :
    (setMatcher m).Follows RefreshStep .apart fun _ st => st = .settled := by
  refine .bind_eq (.perform fun _ => ⟨.holding, .take, rfl⟩) fun _ => ?_
  refine .bind_eq (.perform fun _ => ⟨.replaced, .replace hm, rfl⟩) fun _ => ?_
  exact .perform fun _ => ⟨.settled, .letGo, rfl⟩

theorem follows_failSafe (result : String) :
    (failSafe result).Follows RefreshStep .apart fun _ st => st = .settled := by
  have hresult : (noteResult result).All Action.Aside :=
    (records_noteResult result).mono fun _ => Action.Records.aside
  have hclear : clearRules.Follows RefreshStep .apart fun _ st => st = .settled := by
    refine .bind_eq (follows_setMatcher (.inl rfl)) fun _ => follows_of_aside ?_
    have hengine : clearEngine.All Action.Aside :=
      all_clearEngine trivial (fun _ => trivial) fun _ => trivial
    refine .bind hengine fun engine => .bind (.perform trivial) fun blocks => ?_
    refine .bind (.perform trivial) fun redirects => .bind (.perform trivial) fun _ => ?_
    split <;> exact .pure _
  refine .bind_eq hclear fun r => follows_of_aside ?_
  cases r with
  | ok u => exact hresult
  | error e => exact .bind (.perform trivial) fun _ => hresult

theorem follows_install {policy : CompiledPolicy}
    (hpolicy : OfPolicy (.ofRules policy.redirectRules)) :
    (install policy).Follows RefreshStep .apart fun _ st => ¬ st.Holds := by
  refine .bind_eq (follows_perform trivial trivial) fun installed => ?_
  cases installed with
  | error e => exact .pure id
  | ok installed =>
    refine .bind_eq (follows_perform trivial trivial) fun updated => ?_
    cases updated with
    | error e => exact .pure id
    | ok u =>
      refine .bind_eq (follows_perform trivial trivial) fun _ => ?_
      refine .bind_eq (follows_of_records (records_notes _)) fun _ => ?_
      refine .bind_eq (follows_setMatcher hpolicy) fun _ => ?_
      -- from here on everything is done whatever fails
      refine (follows_of_aside ?_).mono fun _ st hst => hst ▸ id
      refine .bind (.perform trivial) fun blocks => .bind (.perform trivial) fun redirects => ?_
      refine .bind (.perform trivial) fun lock => ?_
      cases blocks <;> cases redirects <;> cases lock <;>
        first | exact .pure _ | exact .bind (.perform trivial) fun _ => .pure _

theorem follows_installDocument {text : String} {doc : PolicyDocument}
    (htext : PolicyDocument.ofText text = .ok doc) :
    (installDocument doc).Follows RefreshStep .apart fun _ st => ¬ st.Holds := by
  obtain ⟨ns, heq⟩ := exists_installDocument_eq doc
  rw [heq]
  refine .bind_eq (follows_of_records (records_notes ns)) fun _ => ?_
  exact (follows_install (.inr ⟨text, doc, htext, rfl⟩)).bind fun _ _ hst => .pure hst

theorem follows_refreshFrom (url : String) :
    (refreshFrom url).Follows RefreshStep .apart fun _ st => ¬ st.Holds := by
  have hfailSafe (result : String) (e : Error) :
      (failSafe result >>= fun _ => pure (.error e) :
        Program (Except Error RefreshOutcome)).Follows RefreshStep .apart fun _ st => ¬ st.Holds :=
    .bind_eq (follows_failSafe result) fun _ => .pure id
  refine .bind_eq (follows_of_records records_noteAttempt) fun _ => ?_
  refine .bind_eq (follows_perform trivial trivial) fun text => ?_
  cases text with
  | error e => exact .bind_eq (follows_perform trivial trivial) fun _ => hfailSafe _ _
  | ok text =>
    refine .bind_eq (follows_of_records records_noteSuccess) fun _ => ?_
    split
    · exact .bind_eq (follows_perform trivial trivial) fun _ => hfailSafe _ _
    · next doc htext => exact follows_installDocument htext

/-- Every refresh follows the protocol of refreshes. -/
theorem follows_refresh (c : Config) :
    (refresh c).Follows RefreshStep .apart fun _ st => ¬ st.Holds := by
  refine .bind_eq (follows_perform rfl trivial) fun _ => ?_
  have hurl : (policyUrl c).Follows RefreshStep .apart fun _ st => st = .apart :=
    .of_all (reads_policyUrl c) fun a ha answer =>
      .before answer (ha.of fun _ => trivial) (ha.of fun _ => trivial)
  have hend (outcome : Except Error RefreshOutcome) (st : Stance) (hst : ¬ st.Holds) :
      (perform (.release .refresh) >>= fun _ => pure outcome).Follows RefreshStep st
        fun _ st => ¬ st.Holds := by
    cases st with
    | apart => exact .bind_eq (follows_perform rfl trivial) fun _ => .pure id
    | settled =>
      exact .bind_eq (.perform fun _ => ⟨.settled, .after _ rfl, rfl⟩) fun _ => .pure id
    | _ => exact absurd trivial hst
  refine .bind_eq hurl fun url => ?_
  cases url with
  | error e => exact .bind_eq (.pure rfl) fun _ => hend _ .apart id
  | ok url =>
    cases url with
    | none =>
      refine .bind_eq (follows_of_records ?_) fun _ => hend _ .apart id
      refine .bind records_noteAttempt fun _ => .bind (records_noteResult _) fun _ => ?_
      exact .bind (.perform trivial) fun _ => .pure _
    | some url => exact (follows_refreshFrom url).bind hend

end Refreshes

/-! ## Navigations -/

section Navigations

/-- Reading the stored redirect rules gives what the text under their key stands for. -/
theorem follows_storedRedirectRules :
    storedRedirectRules.Follows NavigationStep .missing fun rules st =>
      (st = .missing ∧ ∃ e, rules = .error e) ∨
        ∃ text, st = .loading text ∧
          rules = (Cell.redirectRules.decode text).map fun rules => rules.getD [] := by
  intro answer
  cases answer with
  | error e => exact ⟨.missing, .fail e, .inl ⟨rfl, e, rfl⟩⟩
  | ok text => exact ⟨.loading text, .read text, .inr ⟨text, rfl, rfl⟩⟩

/-- What holds the right gives it back at the end. -/
theorem follows_giveBack {α : Type} (st : Stance) (hst : st.Holds) (x : α) :
    (perform (.release .matcher) >>= fun _ => pure x).Follows NavigationStep st
      fun _ st => st = .apart :=
  .bind_eq (.perform fun _ => ⟨.apart, .letGo hst, rfl⟩) fun _ => .pure rfl

/-- A look at the matcher tells whether there is one. -/
theorem follows_served : (perform .served).Follows NavigationStep .holding fun served st =>
    st = match served with
      | some _ => .holding
      | none => .missing := by
  refine .perform fun served => ?_
  cases served with
  | some m => exact ⟨.holding, .find m, rfl⟩
  | none => exact ⟨.missing, .miss, rfl⟩

theorem follows_loadMatcher :
    loadMatcher.Follows NavigationStep .apart fun _ st => st = .apart := by
  refine .bind_eq (.perform fun _ => ⟨.holding, .take, rfl⟩) fun _ => ?_
  refine follows_served.bind fun served st hst => ?_
  subst hst
  cases served with
  | some m => exact follows_giveBack .holding trivial _
  | none =>
    refine follows_storedRedirectRules.bind fun rules st hrules => ?_
    rcases hrules with ⟨rfl, e, rfl⟩ | ⟨text, rfl, rfl⟩
    · exact follows_giveBack .missing trivial _
    · cases hdecode : Cell.redirectRules.decode text with
      | error e => exact follows_giveBack (.loading text) trivial _
      | ok rules =>
        have hnotes : (notes (Matcher.refusals (rules.getD []))).Follows NavigationStep
            (.loading text) fun _ st => st = .loading text := by
          refine .of_all (.notes (P := fun a => ∃ n, a = .note n) (fun n => ⟨n, rfl⟩) _) ?_
          rintro a ⟨n, rfl⟩ answer
          exact .note text n
        refine .bind_eq hnotes fun _ => ?_
        refine .bind_eq (.perform fun _ => ⟨.holding, .share hdecode, rfl⟩) fun _ => ?_
        exact follows_giveBack .holding trivial _

theorem follows_sharedMatcher :
    sharedMatcher.Follows NavigationStep .apart fun _ st => st = .apart := by
  refine .bind_eq (.perform fun _ => ⟨.holding, .take, rfl⟩) fun _ => ?_
  refine follows_served.bind fun served st hst => ?_
  subst hst
  cases served with
  | some m => exact follows_giveBack .holding trivial _
  | none => exact .bind_eq (.perform fun _ => ⟨.apart, .letGo trivial, rfl⟩) fun _ =>
      follows_loadMatcher

/-- Every navigation follows the protocol of navigations. -/
theorem follows_navigate (c : Config) (n : Navigation) :
    (navigate c n).Follows NavigationStep .apart fun _ st => st = .apart := by
  rw [navigate]
  split
  · exact .pure rfl
  · refine .bind_eq follows_sharedMatcher fun m => ?_
    cases m with
    | error e => exact .pure rfl
    | ok m => exact .of_all (scans_scan c _ _ _) fun a ha answer => .scan answer ha

end Navigations

end NavPolicy.Agent
