import NavPolicy.Agent.Interleaving
import NavPolicy.Proofs.Agent.Navigating
import NavPolicy.Proofs.Agent.Refreshing

/-!
# Programs among others

Between two actions of a program other programs may act.  If all of them leave alone what the program
depends on, the stored texts, the engine and the matcher that navigations get
(`Enforcement.StandsAs`), then the program gets the answers that it would get alone.

`Program.Owes` says so step by step: whatever state of that standing comes between its actions, the
program keeps the standing, sends given overrides in all, and comes to a value with a given property.  A
turn of such a program leaves one that owes the rest (`Program.Owes.advance`), which is all that an
interleaving needs to know of its programs.
-/

namespace NavPolicy.Agent

open Program (perform notes)

/-! ## Standing -/

/-- Whether what navigations, password checks and refreshes depend on is the same: the texts that
count, the engine, and the matcher that navigations get. -/
structure Enforcement.StandsAs (env : Surroundings) (x : Enforcement) (y : Enforcement) : Prop where
  texts : x.texts = y.texts
  engine : x.engine = y.engine
  matcher : x.matcher env = y.matcher env

variable {env : Surroundings} {x y z : Enforcement}

namespace Enforcement

theorem StandsAs.refl (x : Enforcement) : x.StandsAs env x := ⟨rfl, rfl, rfl⟩

theorem StandsAs.trans (hxy : x.StandsAs env y) (hyz : y.StandsAs env z) : x.StandsAs env z :=
  ⟨hxy.texts.trans hyz.texts, hxy.engine.trans hyz.engine, hxy.matcher.trans hyz.matcher⟩

/-- What a cell is read as depends on the texts alone. -/
theorem read_congr (h : x.texts = y.texts) (cell : Cell) : x.read env cell = y.read env cell := by
  rw [read, read, h]

/-- The matcher that navigations get depends on the shared one and the texts alone. -/
theorem matcher_congr (hserved : x.served = y.served) (htexts : x.texts = y.texts) :
    x.matcher env = y.matcher env := by
  rw [matcher, matcher, hserved, read_congr htexts]

/-- Where texts, engine and shared matcher are the same, so is the standing. -/
theorem StandsAs.of_eq (htexts : x.texts = y.texts) (hengine : x.engine = y.engine)
    (hserved : x.served = y.served) : x.StandsAs env y :=
  ⟨htexts, hengine, matcher_congr hserved htexts⟩

/-- A fetch leaves the standing as it is. -/
theorem standsAs_fetching (x : Enforcement) (url : String) : (x.fetching url).StandsAs env x :=
  .of_eq rfl rfl rfl

/-- Asking pages leaves the standing as it is. -/
theorem standsAs_probing (x : Enforcement) (urls : List String) :
    (x.probing urls).StandsAs env x := .of_eq rfl rfl rfl

/-- What a write makes of the texts depends on the texts alone. -/
theorem texts_write_congr (h : x.texts = y.texts) (cell : Cell) (v : cell.Content) :
    (x.write env cell v).texts = (y.write env cell v).texts := by
  rw [write, write]
  cases env.writeFault cell.key with
  | some e => exact h
  | none => exact congrArg (fun texts => Function.update texts cell.key _) h

end Enforcement

/-! ## What a program still owes -/

namespace Program

variable {α β : Type}

/-- Among programs that keep the standing of `x`, the program keeps it too, sends these overrides in
all, and comes to a value with a property. -/
def Owes (env : Surroundings) (x : Enforcement) (Q : α → Prop) :
    Program α → List Override → Prop
  | done v, owed => owed = [] ∧ Q v
  | ask a next, owed => ∀ s : State, s.enforcement.StandsAs env x →
      (a.answer env s).2.enforcement.StandsAs env x ∧
        ∃ sent rest, owed = sent ++ rest ∧ (a.answer env s).2.sent = s.sent ++ sent ∧
          (next (a.answer env s).1).Owes env x Q rest

namespace Owes

variable {Q : α → Prop} {R : β → Prop} {p : Program α} {owed later : List Override} {s : State}

/-- A program that has ended owes nothing. -/
theorem pure {v : α} (h : Q v) : (Pure.pure v : Program α).Owes env x Q [] := ⟨rfl, h⟩

/-- A composed program owes what its parts owe. -/
theorem bind {f : α → Program β} (hp : p.Owes env x Q owed)
    (hf : ∀ v, Q v → (f v).Owes env x R later) : (p >>= f).Owes env x R (owed ++ later) := by
  induction p generalizing owed with
  | done v =>
    obtain ⟨rfl, hv⟩ := hp
    exact hf v hv
  | ask a next ih =>
    intro s hs
    obtain ⟨hafter, sent, rest, rfl, hsent, hrest⟩ := hp s hs
    exact ⟨hafter, sent, rest ++ later, List.append_assoc .., hsent, ih _ hrest⟩

/-- A part that owes nothing may come first. -/
theorem bind_nil {f : α → Program β} (hp : p.Owes env x Q [])
    (hf : ∀ v, Q v → (f v).Owes env x R later) : (p >>= f).Owes env x R later := hp.bind hf

/-- A part of whose value nothing is known may come first. -/
theorem bind_true {f : α → Program β} (hp : p.Owes env x (fun _ => True) [])
    (hf : ∀ v, (f v).Owes env x R later) : (p >>= f).Owes env x R later :=
  hp.bind fun v _ => hf v

/-- A part whose value is known may come first. -/
theorem bind_eq {f : α → Program β} {v : α} (hp : p.Owes env x (· = v) [])
    (hf : (f v).Owes env x R later) : (p >>= f).Owes env x R later :=
  hp.bind fun _ h => h ▸ hf

/-- A single action that keeps the standing and sends nothing owes nothing. -/
theorem perform {a : Action} {Q : a.Answer → Prop}
    (h : ∀ s : State, s.enforcement.StandsAs env x →
      (a.answer env s).2.enforcement.StandsAs env x ∧ (a.answer env s).2.sent = s.sent ∧
        Q (a.answer env s).1) : (Program.perform a).Owes env x Q [] := by
  intro s hs
  obtain ⟨hafter, hsent, hQ⟩ := h s hs
  exact ⟨hafter, [], [], rfl, by rw [hsent, List.append_nil], rfl, hQ⟩

/-- A single action owes nothing if what it gives is known, keeps the standing and sends nothing. -/
theorem perform_of_gives {a : Action} {v : a.Answer}
    (h : ∀ y : Enforcement, y.StandsAs env x → ∃ z : Enforcement,
      (Program.perform a).Gives env y v z ∧ z.StandsAs env x ∧ z.sent = y.sent) :
    (Program.perform a).Owes env x (· = v) [] := by
  refine perform fun s hs => ?_
  obtain ⟨z, hgives, hz, hsent⟩ := h _ hs
  obtain ⟨hanswer, hafter⟩ := hgives s rfl
  rw [run_perform] at hanswer hafter
  refine ⟨hafter ▸ hz, ?_, hanswer⟩
  exact (congrArg Enforcement.sent hafter).trans hsent

/-- A program that only records owes nothing. -/
theorem of_onlyRecords (hp : p.All Action.OnlyRecords) :
    p.Owes env x (fun _ => True) [] := by
  induction p with
  | done v => exact ⟨rfl, trivial⟩
  | ask a next ih =>
    intro s hs
    have hafter := hp.1.enforcement_answer env s
    refine ⟨hafter ▸ hs, [], [], rfl, ?_, ih _ (hp.2 _)⟩
    rw [List.append_nil]
    exact congrArg Enforcement.sent hafter

/-- Run alone, a program does what it owes. -/
theorem run (hp : p.Owes env x Q owed) (hs : s.enforcement.StandsAs env x) :
    (p.run env s).2.enforcement.StandsAs env x ∧ (p.run env s).2.sent = s.sent ++ owed ∧
      Q (p.run env s).1 := by
  induction p generalizing owed s with
  | done v =>
    obtain ⟨rfl, hv⟩ := hp
    exact ⟨hs, (List.append_nil _).symm, hv⟩
  | ask a next ih =>
    obtain ⟨hafter, sent, rest, rfl, hsent, hrest⟩ := hp s hs
    obtain ⟨hend, hsentEnd, hQ⟩ := ih _ hrest hafter
    refine ⟨hend, hsentEnd.trans ?_, hQ⟩
    rw [hsent, List.append_assoc]

/-- A program that has a turn does a part of what it owes, and goes on owing the rest. -/
theorem advance (hp : p.Owes env x Q owed) (hs : s.enforcement.StandsAs env x)
    (held : List Resource) :
    (p.advance env held s).2.1.enforcement.StandsAs env x ∧
      ∃ sent rest, owed = sent ++ rest ∧ (p.advance env held s).2.1.sent = s.sent ++ sent ∧
        (p.advance env held s).1.Owes env x Q rest := by
  cases p with
  | done v => exact ⟨hs, [], owed, rfl, (List.append_nil _).symm, hp⟩
  | ask a next =>
    rw [Program.advance]
    split
    · exact ⟨hs, [], owed, rfl, (List.append_nil _).symm, hp⟩
    · exact hp s hs

/-- Where a program is known to come to one value, it is the one that it comes to alone. -/
theorem eq_run {v : α} (hp : p.Owes env s.enforcement (· = v) []) : (p.run env s).1 = v :=
  (hp.run (.refl _)).2.2

end Owes

end Program

/-! ## Accesses among others -/

section Accesses

/-- An action that only records owes nothing. -/
theorem owes_perform {a : Action} (h : a.OnlyRecords) :
    (perform a).Owes env x (fun _ => True) [] := .of_onlyRecords (.perform h)

/-- A notice owes nothing. -/
theorem owes_note {n : Notice} : (perform (.note n)).Owes env x (fun _ => True) [] :=
  owes_perform trivial

/-- Waiting for a resource owes nothing. -/
theorem owes_acquire {r : Resource} : (perform (.acquire r)).Owes env x (fun _ => True) [] :=
  owes_perform trivial

/-- Giving back a resource owes nothing. -/
theorem owes_release {r : Resource} : (perform (.release r)).Owes env x (fun _ => True) [] :=
  owes_perform trivial

variable (env x)

/-- A cell is read as it stands. -/
theorem owes_readCell (cell : Cell) [Enforced cell] :
    (readCell cell).Owes env x (· = x.read env cell) [] := by
  have hread : (perform (.read cell.key)).Owes env x
      (fun answer => Except.bind answer cell.decode = x.read env cell) [] := by
    refine .perform fun s hs => ?_
    have hgives := gives_readCell env s.enforcement cell s rfl
    rw [Enforcement.read_congr hs.texts] at hgives
    rw [Action.OnlyLooks.answer_eq env s (a := .read cell.key) trivial]
    refine ⟨hs, rfl, ?_⟩
    rw [← hgives.1, readCell, Program.run_bind, Program.run_perform]
    cases ((Action.read cell.key).answer env s).1 <;> rfl
  refine hread.bind_nil fun answer h => ?_
  cases answer with
  | ok text => exact .pure h
  | error e => exact .pure h

/-- The policy URL in force is the managed one or else the one under its key. -/
theorem owes_policyUrl (c : Config) :
    (policyUrl c).Owes env x (· = x.policyUrl env c) [] := by
  rw [policyUrl, Enforcement.policyUrl]
  cases c.managedUrl? with
  | some url => exact .pure rfl
  | none => exact (owes_readCell env x .policyUrl).bind_eq (.pure rfl)

/-- A write that leaves the texts as they are owes nothing. -/
theorem owes_writeCell (cell : Cell) [Enforced cell] {v : cell.Content}
    (h : (x.write env cell v).texts = x.texts) :
    (writeCell cell v).Owes env x (· = outcome (env.writeFault cell.key)) [] := by
  refine .perform_of_gives fun y hy => ⟨_, gives_writeCell env y cell v, ?_, ?_⟩
  · have htexts : (y.write env cell v).texts = y.texts :=
      (Enforcement.texts_write_congr hy.texts cell v).trans (h.trans hy.texts.symm)
    exact (Enforcement.StandsAs.of_eq htexts Enforcement.engine_write
      Enforcement.served_write).trans hy
  · rw [Enforcement.write]
    cases env.writeFault cell.key <;> rfl

/-- The rules of the engine are listed. -/
theorem owes_listRules :
    (perform .listRules).Owes env x (· = env.listed x.engine) [] :=
  .perform_of_gives fun y hy => ⟨y, hy.engine ▸ gives_listRules env y, hy, rfl⟩

variable {env x}

/-- An update that the engine refuses owes nothing. -/
theorem owes_update_of_error {u : RuleUpdate} {e : EngineError}
    (h : env.updated u x.engine = .error e) :
    (perform (.update u)).Owes env x (· = .error e) [] :=
  .perform_of_gives fun y hy =>
    ⟨y, gives_update_of_error env y (hy.engine.symm ▸ h), hy, rfl⟩

/-- An update that changes nothing owes nothing. -/
theorem owes_update_of_ok {u : RuleUpdate} (h : env.updated u x.engine = .ok x.engine) :
    (perform (.update u)).Owes env x (· = .ok ()) [] :=
  .perform_of_gives fun y hy => by
    rw [← hy.engine] at h
    exact ⟨_, gives_update_of_ok env y h, .trans (.of_eq rfl rfl rfl) hy, rfl⟩

/-- A fetch from a source that always answers the same owes nothing. -/
theorem owes_fetch {answer : Except SourceError String} {url : String}
    (h : ∀ count, env.source count url = answer) :
    (perform (.fetch url)).Owes env x (· = answer) [] :=
  .perform_of_gives fun y hy =>
    ⟨y.fetching url, h y.fetched.length ▸ gives_fetch url, (y.standsAs_fetching url).trans hy, rfl⟩

/-- Sharing the matcher that navigations get anyway owes nothing. -/
theorem owes_serve {m : Matcher} (h : x.matcher env = .ok m) :
    (perform (.serve m)).Owes env x (· = ()) [] :=
  .perform_of_gives fun _ hy => ⟨_, gives_serve m, ⟨hy.texts, hy.engine, h.symm⟩, rfl⟩

/-- Replacing the shared matcher by the one that navigations get anyway owes nothing. -/
theorem owes_setMatcher {m : Matcher} (h : x.matcher env = .ok m) :
    (setMatcher m).Owes env x (fun _ => True) [] := by
  refine owes_acquire.bind_true fun _ => (owes_serve h).bind_eq ?_
  exact owes_release

end Accesses

end NavPolicy.Agent
