import Mathlib.Data.List.Forall2
import NavPolicy.Agent.Schedule
import NavPolicy.Proofs.Agent.Answering
import NavPolicy.Proofs.Agent.Repeating

/-!
# Tasks under way

Each command comes to a task, an answer or the end, and owes the overrides that it would be answered
with alone (`owes_service`).  While tasks are under way each of them has sent a part of what it owes.
In which order they send is left open; all that is due is sent once all of them have ended
(`Interleaving.Underway.sent_of_hasEnded`).
-/

namespace NavPolicy.Agent

open Program (perform)

variable {env : Surroundings} {x : Enforcement}

/-! ## What commands come to -/

/-- The overrides that a command owes. -/
def Command.overrides (env : Surroundings) (live : String → Bool) (x : Enforcement) :
    Command → List Override
  | navigate n => x.overrides env live n
  | _ => []

section Services

variable {live : String → Bool} (hlive : ∀ count url, env.answers count url = live url)
variable (hlistening : env.listening = true)

include hlive hlistening

/-- The task of a navigation owes the override that it is answered with. -/
theorem owes_navigateTask (c : Config) (n : Navigation) :
    (navigateTask c n).Owes env x (fun _ => True) (x.overrides env live n) := by
  rw [← List.append_nil (x.overrides env live n)]
  refine .bind (owes_navigate hlive hlistening c n) fun r _ => ?_
  cases r with
  | ok target => exact .pure trivial
  | error e => exact owes_note

/-- What each command comes to: a task that owes its overrides, an answer, or the end. -/
theorem owes_service {c : Config} {s : State}
    (hsource : ∀ m n url, env.source m url = env.source n url)
    (hs : s.enforcement.Steady env c) (command : Command) :
    match command.service c with
    | .task p =>
      p.Owes env s.enforcement (fun _ => True) (command.overrides env live s.enforcement) ∧
        command.hasReply = false ∧ command ≠ .shutdown
    | .answer p =>
      p.Owes env s.enforcement (command.IsAnswer env s) [] ∧ command.hasReply = true ∧
        command ≠ .shutdown ∧ command.overrides env live s.enforcement = []
    | .stop => command = .shutdown := by
  cases command with
  | refresh => exact ⟨owes_refreshTask hsource hs, rfl, by simp⟩
  | navigate n => exact ⟨owes_navigateTask hlive hlistening c n, rfl, by simp⟩
  | verifyPassword password => exact ⟨owes_verifyCommand s password, rfl, by simp, rfl⟩
  | status =>
    have hreads : (status c).All Action.OnlyRecords :=
      (reads_status c).mono fun _ => Action.Reads.of fun _ => trivial
    refine ⟨(Program.Owes.of_onlyRecords hreads).bind_true fun answer => ?_, rfl, by simp, rfl⟩
    exact .pure ⟨answer, rfl⟩
  | shutdown => rfl

end Services

/-! ## Tasks under way -/

/-- Whether tasks keep the standing of a state, and owe what is due since but for what was sent. -/
structure Interleaving.Underway (env : Surroundings) (s : State) (due : List Override)
    (t : Interleaving Unit) : Prop where
  standing : t.state.enforcement.StandsAs env s.enforcement
  owing : ∃ owed,
    List.Forall₂ (fun p => Program.Owes env s.enforcement (fun _ => True) p) t.programs owed ∧
      (t.state.sent ++ owed.flatten).Perm (s.sent ++ due)

/-- Where two lists are related place by place, a related pair at one place may take the place of
another. -/
theorem exists_replace_of_forall₂ {α β : Type} {R : α → β → Prop} {xs : List α} {ys : List β}
    (h : List.Forall₂ R xs ys) {place : Nat} {x : α} (hx : xs[place]? = some x) :
    ∃ before y after, ys = before ++ y :: after ∧ R x y ∧
      ∀ x' y', R x' y' → List.Forall₂ R (xs.set place x') (before ++ y' :: after) := by
  induction h generalizing place with
  | nil => exact absurd hx (by simp)
  | @cons x₁ y₁ xs ys hhead htail ih =>
    cases place with
    | zero =>
      obtain rfl : x₁ = x := by simpa using hx
      exact ⟨[], y₁, ys, rfl, hhead, fun x' y' h' => .cons h' htail⟩
    | succ place =>
      obtain ⟨before, y, after, rfl, hxy, hreplace⟩ := ih (by simpa using hx)
      exact ⟨y₁ :: before, y, after, rfl, hxy, fun x' y' h' => .cons hhead (hreplace x' y' h')⟩

/-- A part of one list in a list of lists may be put before all of them. -/
theorem perm_flatten_replace {α : Type} (before after : List (List α)) (part rest : List α) :
    (part ++ (before ++ rest :: after).flatten).Perm
      (before ++ (part ++ rest) :: after).flatten := by
  calc
    part ++ (before ++ rest :: after).flatten
        = (part ++ before.flatten) ++ (rest ++ after.flatten) := by simp
    List.Perm _ ((before.flatten ++ part) ++ (rest ++ after.flatten)) :=
        List.perm_append_comm.append_right _
    _ = (before ++ (part ++ rest) :: after).flatten := by simp

namespace Interleaving

variable {s : State} {due : List Override} {t : Interleaving Unit}

/-- Without tasks nothing is due. -/
theorem underway_nil {state : State} {held : List Resource}
    (h : state.enforcement = s.enforcement) : Underway env s [] ⟨state, held, []⟩ where
  standing := h ▸ .refl _
  owing := by
    have hsent : state.sent = s.sent := congrArg Enforcement.sent h
    refine ⟨[], .nil, ?_⟩
    rw [hsent]
    rfl

/-- A notice makes no difference. -/
theorem Underway.note (h : t.Underway env s due) (n : Notice) :
    Underway env s due
      { t with state := { t.state with notices := t.state.notices ++ [n] } } where
  standing := h.standing
  owing := h.owing

/-- A new task adds what it owes to what is due. -/
theorem Underway.spawn {p : Program Unit} {owed : List Override} (h : t.Underway env s due)
    (hp : p.Owes env s.enforcement (fun _ => True) owed) :
    Underway env s (due ++ owed) { t with programs := t.programs ++ [p] } where
  standing := h.standing
  owing := by
    obtain ⟨allOwed, hall, hperm⟩ := h.owing
    refine ⟨allOwed ++ [owed], List.rel_append hall (.cons hp .nil), ?_⟩
    rw [List.flatten_append, List.flatten_singleton, ← List.append_assoc, ← List.append_assoc]
    exact hperm.append_right owed

/-- The loop's own work that owes nothing may have a turn. -/
theorem Underway.advance {α : Type} {p : Program α} {Q : α → Prop} (h : t.Underway env s due)
    (hp : p.Owes env s.enforcement Q []) :
    let next := p.advance env t.held t.state
    next.1.Owes env s.enforcement Q [] ∧ Underway env s due ⟨next.2.1, next.2.2, t.programs⟩ := by
  intro next
  obtain ⟨hstanding, sent, rest, hsplit, hsent, hrest⟩ := hp.advance h.standing t.held
  obtain ⟨rfl, rfl⟩ := List.append_eq_nil_iff.1 hsplit.symm
  rw [List.append_nil] at hsent
  obtain ⟨owed, hall, hperm⟩ := h.owing
  refine ⟨hrest, hstanding, owed, hall, ?_⟩
  show (next.2.1.sent ++ _).Perm _
  rw [hsent]
  exact hperm

/-- A task may have a turn. -/
theorem Underway.turn (h : t.Underway env s due) (place : Nat) :
    (t.turn env place).Underway env s due := by
  rw [Interleaving.turn]
  cases hplace : t.programs[place]? with
  | none => exact h
  | some p =>
    obtain ⟨owed, hall, hperm⟩ := h.owing
    obtain ⟨before, here, after, rfl, hp, hreplace⟩ := exists_replace_of_forall₂ hall hplace
    obtain ⟨hstanding, sent, rest, rfl, hsent, hrest⟩ := hp.advance h.standing t.held
    refine ⟨hstanding, before ++ rest :: after, hreplace _ _ hrest, ?_⟩
    refine List.Perm.trans ?_ hperm
    show ((p.advance env t.held t.state).2.1.sent ++ _).Perm _
    rw [hsent, List.append_assoc]
    exact (perm_flatten_replace before after sent rest).append_left _

/-- Tasks that have all ended owe nothing. -/
theorem flatten_owed_of_ended {programs : List (Program Unit)} {owed : List (List Override)}
    {Q : Unit → Prop} (h : List.Forall₂ (fun p => Program.Owes env x Q p) programs owed)
    (hended : ∀ p ∈ programs, p.value?.isSome = true) : owed.flatten = [] := by
  induction h with
  | nil => rfl
  | @cons p o programs owed hp _ ih =>
    rw [List.forall_mem_cons] at hended
    cases p with
    | done u => rw [List.flatten_cons, hp.1, ih hended.2, List.append_nil]
    | ask a next => exact absurd hended.1 (by simp [Program.value?])

/-- Once all tasks have ended, what was due has been sent. -/
theorem Underway.sent_of_hasEnded (h : t.Underway env s due) (hended : t.hasEnded = true) :
    t.state.sent.Perm (s.sent ++ due) := by
  obtain ⟨owed, hall, hperm⟩ := h.owing
  rw [flatten_owed_of_ended hall (List.all_eq_true.1 hended), List.append_nil] at hperm
  exact hperm

/-- Tasks that have all ended stay as they are. -/
theorem turn_of_hasEnded (hended : t.hasEnded = true) (place : Nat) : t.turn env place = t := by
  rw [turn]
  cases hplace : t.programs[place]? with
  | none => rfl
  | some p =>
    have hp : p.value?.isSome = true :=
      List.all_eq_true.1 hended p (List.mem_of_getElem? hplace)
    cases p with
    | ask a next => exact absurd hp (by simp [Program.value?])
    | done u =>
      obtain ⟨hlt, heq⟩ := List.getElem?_eq_some_iff.1 hplace
      show Interleaving.mk t.state t.held (t.programs.set place (.done u)) = t
      rw [← heq, List.set_getElem_self]

end Interleaving

end NavPolicy.Agent
