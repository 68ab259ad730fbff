import NavPolicy.Agent.State

/-!
# Laws of programs and their runs

A run of a composed program is a run of its first part and then one of what follows.  What holds of every
action that a program may come to, whatever it is answered, is `Program.All`; a property of states that
such actions preserve is preserved by the whole run (`Program.All.run`).
-/

namespace NavPolicy.Agent

namespace Program

variable {α β : Type} (env : Surroundings)

/-! ## Runs -/

/-- A single action is answered. -/
theorem run_perform (a : Action) (s : State) : (perform a).run env s = a.answer env s := rfl

/-- A composed program is run part by part. -/
theorem run_bind (p : Program α) (f : α → Program β) (s : State) :
    (p >>= f).run env s = (f (p.run env s).1).run env (p.run env s).2 := by
  induction p generalizing s with
  | done x => rfl
  | ask a next ih => exact ih (a.answer env s).1 (a.answer env s).2

/-- A notice that is given after others is the last of them. -/
theorem notes_concat (ns : List Notice) (n : Notice) (p : Program α) :
    (notes ns >>= fun _ => perform (.note n) >>= fun _ => p) = notes (ns ++ [n]) >>= fun _ => p := by
  induction ns with
  | nil => rfl
  | cons m ns ih => exact congrArg (ask (.note m)) (funext fun _ => ih)

/-- A composed program goes on from where its first part comes to. -/
theorem run_bind_of_eq {p : Program α} {f : α → Program β} {s t : State} {x : α} {r : β × State}
    (hp : p.run env s = (x, t)) (hf : (f x).run env t = r) : (p >>= f).run env s = r := by
  rw [run_bind, hp]
  exact hf

/-! ## Properties of all actions -/

/-- Every action that the program may come to has a property, whatever it is answered. -/
def All (P : Action → Prop) : Program α → Prop
  | done _ => True
  | ask a next => P a ∧ ∀ answer, (next answer).All P

namespace All

variable {P Q : Action → Prop}

/-- A program that does nothing comes to no action. -/
theorem pure (x : α) : (Pure.pure x : Program α).All P := trivial

/-- A single action comes to itself. -/
theorem perform {a : Action} (h : P a) : (Program.perform a).All P := ⟨h, fun _ => trivial⟩

/-- The actions of a composed program are those of its parts. -/
theorem bind {p : Program α} {f : α → Program β} (hp : p.All P) (hf : ∀ x, (f x).All P) :
    (p >>= f).All P := by
  induction p with
  | done x => exact hf x
  | ask a next ih => exact ⟨hp.1, fun answer => ih answer (hp.2 answer)⟩

/-- A program may only come to more actions than are asked for. -/
theorem mono {p : Program α} (h : p.All P) (hPQ : ∀ a, P a → Q a) : p.All Q := by
  induction p with
  | done x => trivial
  | ask a next ih => exact ⟨hPQ a h.1, fun answer => ih answer (h.2 answer)⟩

/-- Giving notices comes to nothing but that. -/
theorem notes (h : ∀ n, P (.note n)) (ns : List Notice) : (Program.notes ns).All P := by
  induction ns with
  | nil => trivial
  | cons n ns ih => exact ⟨h n, fun _ => ih⟩

/-- A property of states that each action of a program preserves is preserved by its run. -/
theorem run {p : Program α} (h : p.All P) {I : State → Prop}
    (hI : ∀ a s, P a → I s → I (a.answer env s).2) {s : State} (hs : I s) : I (p.run env s).2 := by
  induction p generalizing s with
  | done x => exact hs
  | ask a next ih => exact ih _ (h.2 _) (hI a s h.1 hs)

/-- What no action of a program changes is not changed by its run. -/
theorem run_eq {p : Program α} (h : p.All P) {f : State → β}
    (hf : ∀ a s, P a → f (a.answer env s).2 = f s) (s : State) : f (p.run env s).2 = f s :=
  h.run env (fun a t ha ht => (hf a t ha).trans ht) rfl

end All

end Program

end NavPolicy.Agent
