import Mathlib.Data.List.Basic
import NavPolicy.Agent.Interleaving
import NavPolicy.Proofs.Agent.Program

/-!
# Turns and steps

Programs that run side by side are given turns, each in surroundings of its own.  A turn comes to a step,
an action in the state that it meets, unless the program waits or has ended (`turn_cases`).  The steps of
one program, among those of all, take it from what it was to what it still has to do
(`comes_of_afterTurns`), and each step is taken at some moment (`exists_past`).
-/

namespace NavPolicy.Agent

/-- A turn of the program at a place, in given surroundings. -/
structure Turn where
  env : Surroundings
  place : Nat

/-- An action of the program at a place, in given surroundings and in the state that it meets. -/
structure Step where
  env : Surroundings
  place : Nat
  state : State
  action : Action

/-- The state after a step. -/
def Step.after (st : Step) : State := (st.action.answer st.env st.state).2

variable {α β : Type}

/-! ## The steps of programs in turn with each other -/

namespace Interleaving

/-- The step that a turn comes to. -/
def step? (m : Interleaving α) (t : Turn) : Option Step :=
  match m.programs[t.place]? with
  | some (.ask a next) =>
    if (Program.ask a next).waits m.held then none else some ⟨t.env, t.place, m.state, a⟩
  | _ => none

/-- Gives turns one after the other. -/
def afterTurns (m : Interleaving α) (ts : List Turn) : Interleaving α :=
  ts.foldl (fun m t => m.turn t.env t.place) m

/-- The steps that turns come to. -/
def steps (m : Interleaving α) : List Turn → List Step
  | [] => []
  | t :: ts => (m.step? t).toList ++ (m.turn t.env t.place).steps ts

theorem afterTurns_append (m : Interleaving α) (ts us : List Turn) :
    m.afterTurns (ts ++ us) = (m.afterTurns ts).afterTurns us := List.foldl_append

theorem steps_append (m : Interleaving α) (ts us : List Turn) :
    m.steps (ts ++ us) = m.steps ts ++ (m.afterTurns ts).steps us := by
  induction ts generalizing m with
  | nil => rfl
  | cons t ts ih =>
    rw [List.cons_append, steps, steps, ih, List.append_assoc]
    rfl

/-- A turn changes nothing and comes to no step, or the program at its place asks for an action that
nothing holds up, and goes on with the answer. -/
theorem turn_cases (m : Interleaving α) (t : Turn) :
    (m.step? t = none ∧ m.turn t.env t.place = m) ∨
    ∃ a next, m.programs[t.place]? = some (.ask a next) ∧
      (Program.ask a next).waits m.held = false ∧
      m.step? t = some ⟨t.env, t.place, m.state, a⟩ ∧
      m.turn t.env t.place = ⟨(a.answer t.env m.state).2, Program.heldAfter m.held a,
        m.programs.set t.place (next (a.answer t.env m.state).1)⟩ := by
  cases hplace : m.programs[t.place]? with
  | none => exact .inl ⟨by rw [step?, hplace], by rw [turn, hplace]⟩
  | some p =>
    -- a program that is put back as it is leaves the list of programs as it is
    have hset : m.programs.set t.place p = m.programs := by
      obtain ⟨hlt, rfl⟩ := List.getElem?_eq_some_iff.1 hplace
      exact List.set_getElem_self hlt
    cases p with
    | done x =>
      refine .inl ⟨by rw [step?, hplace], ?_⟩
      rw [turn, hplace]
      show Interleaving.mk m.state m.held (m.programs.set t.place (.done x)) = m
      rw [hset]
    | ask a next =>
      cases hwaits : (Program.ask a next).waits m.held with
      | true =>
        refine .inl ⟨by rw [step?, hplace]; exact if_pos hwaits, ?_⟩
        rw [turn, hplace]
        simp only [Program.advance, hwaits, if_true, hset]
      | false =>
        refine .inr ⟨a, next, rfl, hwaits, ?_, ?_⟩
        · rw [step?, hplace]
          exact if_neg (by simp [hwaits])
        · rw [turn, hplace]
          simp only [Program.advance, hwaits, Bool.false_eq_true, if_false]

/-- The state after a turn that comes to a step is the one after the step. -/
theorem state_turn_of_step? {m : Interleaving α} {t : Turn} {st : Step} (h : m.step? t = some st) :
    (m.turn t.env t.place).state = st.after ∧ st.state = m.state ∧ st.place = t.place ∧
      ∃ next, m.programs[t.place]? = some (.ask st.action next) := by
  rcases m.turn_cases t with ⟨hnone, -⟩ | ⟨a, next, hplace, -, hstep, hturn⟩
  · exact absurd (hnone.symm.trans h) (by simp)
  · obtain rfl := Option.some.inj (hstep.symm.trans h)
    exact ⟨by rw [hturn]; rfl, rfl, rfl, next, hplace⟩

/-- Each step is the one that some turn comes to, and the steps before it are those of the turns before
that. -/
theorem exists_past {m : Interleaving α} {ts : List Turn} {pre post : List Step} {st : Step}
    (h : m.steps ts = pre ++ st :: post) :
    ∃ past t later, ts = past ++ t :: later ∧ m.steps past = pre ∧
      (m.afterTurns past).step? t = some st := by
  induction ts generalizing m pre with
  | nil => exact absurd h (by simp [steps])
  | cons t ts ih =>
    rw [steps] at h
    cases hstep : m.step? t with
    | none =>
      rw [hstep, Option.toList_none, List.nil_append] at h
      obtain ⟨past, u, later, rfl, rfl, hu⟩ := ih h
      exact ⟨t :: past, u, later, rfl, by rw [steps, hstep]; rfl, hu⟩
    | some st₀ =>
      rw [hstep, Option.toList_some, List.singleton_append] at h
      cases pre with
      | nil =>
        obtain ⟨rfl, -⟩ := List.cons.inj h
        exact ⟨[], t, ts, rfl, rfl, hstep⟩
      | cons st₁ pre =>
        obtain ⟨rfl, hrest⟩ := List.cons.inj h
        obtain ⟨past, u, later, rfl, rfl, hu⟩ := ih hrest
        exact ⟨t :: past, u, later, rfl, by rw [steps, hstep]; rfl, hu⟩

end Interleaving

/-! ## The steps of one program -/

namespace Program

/-- Whether steps take a program to what it has to do after them. -/
inductive Comes : Program α → List Step → Program α → Prop
  | nil (p : Program α) : Comes p [] p
  | cons {a : Action} {next : a.Answer → Program α} (env : Surroundings) (place : Nat) (s : State)
      {sts : List Step} {q : Program α} (h : Comes (next (a.answer env s).1) sts q) :
      Comes (.ask a next) (⟨env, place, s, a⟩ :: sts) q

namespace Comes

variable {p q : Program α} {f : α → Program β} {y : β} {x : α} {pre post sts : List Step}

/-- A program that has ended takes no steps. -/
theorem done_inv (h : (Program.done x).Comes sts q) : sts = [] ∧ q = .done x := by
  cases h
  exact ⟨rfl, rfl⟩

/-- Steps leave a program one thing to do. -/
theorem unique {r : Program α} (h : p.Comes sts q) (h' : p.Comes sts r) : q = r := by
  induction h with
  | nil p =>
    cases h'
    rfl
  | cons env place s h ih =>
    cases h' with
    | cons _ _ _ h' => exact ih h'

/-- A program that takes a step has not ended. -/
theorem value?_eq_none {st : Step} (h : p.Comes (st :: sts) q) : p.value? = none := by
  cases h
  rfl

/-- Steps in two parts are taken one part after the other. -/
theorem append_inv (h : p.Comes (pre ++ post) q) : ∃ r, p.Comes pre r ∧ r.Comes post q := by
  induction pre generalizing p with
  | nil => exact ⟨p, .nil p, h⟩
  | cons st pre ih =>
    cases h with
    | cons env place s h =>
      obtain ⟨r, hpre, hpost⟩ := ih h
      exact ⟨r, .cons env place s hpre, hpost⟩

/-- The first step of a program that begins with an action. -/
theorem perform_bind_inv {a : Action} {f : a.Answer → Program β}
    (h : (perform a >>= f).Comes sts (.done y)) :
    ∃ env place s rest, sts = ⟨env, place, s, a⟩ :: rest ∧
      (f (a.answer env s).1).Comes rest (.done y) := by
  cases h with
  | cons env place s h => exact ⟨env, place, s, _, rfl, h⟩

/-- A composed program that has ended took the steps of its parts. -/
theorem bind_inv (h : (p >>= f).Comes sts (.done y)) :
    ∃ x pre post, sts = pre ++ post ∧ p.Comes pre (.done x) ∧ (f x).Comes post (.done y) := by
  induction p generalizing sts with
  | done x => exact ⟨x, [], sts, rfl, .nil _, h⟩
  | ask a next ih =>
    cases h with
    | cons env place s h =>
      obtain ⟨x, pre, post, rfl, hpre, hpost⟩ := ih _ h
      exact ⟨x, ⟨env, place, s, a⟩ :: pre, post, rfl, .cons env place s hpre, hpost⟩

/-- The actions of a program are those that it may come to. -/
theorem all {P : Action → Prop} (hp : p.All P) (h : p.Comes sts q) :
    ∀ st ∈ sts, P st.action := by
  induction h with
  | nil p => exact fun st hst => absurd hst List.not_mem_nil
  | cons env place s h ih => exact List.forall_mem_cons.2 ⟨hp.1, ih (hp.2 _)⟩

end Comes

end Program

namespace Interleaving

/-- The steps of the program at a place. -/
def stepsAt (place : Nat) (sts : List Step) : List Step := sts.filter fun st => st.place = place

/-- The steps at a place take the program there to what it still has to do. -/
theorem comes_of_afterTurns {m : Interleaving α} (ts : List Turn) {place : Nat} {p : Program α}
    (hp : m.programs[place]? = some p) :
    ∃ q, (m.afterTurns ts).programs[place]? = some q ∧ p.Comes (stepsAt place (m.steps ts)) q := by
  induction ts generalizing m p with
  | nil => exact ⟨p, hp, .nil p⟩
  | cons t ts ih =>
    rw [steps]
    rcases m.turn_cases t with ⟨hstep, hturn⟩ | ⟨a, next, hplace, -, hstep, hturn⟩
    · obtain ⟨q, hq, hcomes⟩ := ih (m := m.turn t.env t.place) (hturn ▸ hp)
      rw [hstep, Option.toList_none, List.nil_append]
      exact ⟨q, hq, hcomes⟩
    · rw [hstep, Option.toList_some, List.singleton_append]
      by_cases ht : t.place = place
      · -- the step is one of this program
        subst ht
        obtain rfl := Option.some.inj (hplace.symm.trans hp)
        have hlt : t.place < m.programs.length := (List.getElem?_eq_some_iff.1 hplace).1
        obtain ⟨q, hq, hcomes⟩ := ih (m := m.turn t.env t.place) (p := next _) <| by
          rw [hturn]
          exact List.getElem?_set_self hlt
        refine ⟨q, hq, ?_⟩
        rw [stepsAt, List.filter_cons_of_pos (by simp)]
        exact .cons t.env t.place m.state hcomes
      · obtain ⟨q, hq, hcomes⟩ := ih (m := m.turn t.env t.place) (p := p) <| by
          rw [hturn]
          exact (List.getElem?_set_ne ht).trans hp
        refine ⟨q, hq, ?_⟩
        rw [stepsAt, List.filter_cons_of_neg (by simpa using ht)]
        exact hcomes

/-- Only programs that are there take steps. -/
theorem exists_program_of_mem_steps {m : Interleaving α} {ts : List Turn} {st : Step}
    (h : st ∈ m.steps ts) :
    ∃ p, m.programs[st.place]? = some p := by
  induction ts generalizing m with
  | nil => exact absurd h List.not_mem_nil
  | cons t ts ih =>
    rw [steps, List.mem_append, Option.mem_toList] at h
    rcases h with hstep | hrest
    · obtain ⟨-, -, hplace, next, hprogram⟩ := state_turn_of_step? hstep
      exact ⟨_, hplace ▸ hprogram⟩
    · obtain ⟨p, hp⟩ := ih hrest
      rcases m.turn_cases t with ⟨-, hturn⟩ | ⟨a, next, hprogram, -, -, hturn⟩
      · exact ⟨p, hturn ▸ hp⟩
      · rw [hturn] at hp
        by_cases hplace : t.place = st.place
        · exact ⟨_, hplace ▸ hprogram⟩
        · exact ⟨p, (List.getElem?_set_ne hplace).symm.trans hp⟩

/-- A step of a program is one of all the steps, and the program's steps before and after it are among those
before and after it. -/
theorem exists_cut_of_stepsAt {place : Nat} {sts pre post : List Step} {st : Step}
    (h : stepsAt place sts = pre ++ st :: post) :
    st.place = place ∧ ∃ before after, sts = before ++ st :: after ∧
      stepsAt place before = pre ∧ stepsAt place after = post := by
  obtain ⟨before, rest, rfl, hpre, hrest⟩ := List.filter_eq_append_iff.1 h
  obtain ⟨others, after, rfl, hothers, hst, hafter⟩ := List.filter_eq_cons_iff.1 hrest
  have hbefore : stepsAt place (before ++ others) = pre := by
    rw [stepsAt, List.filter_append, hpre, List.filter_eq_nil_iff.2 hothers, List.append_nil]
  exact ⟨of_decide_eq_true hst, before ++ others, after, (List.append_assoc ..).symm, hbefore, hafter⟩

/-- Each step of a program is taken at some moment, after its steps before and before those after. -/
theorem exists_past_of_stepsAt {m : Interleaving α} {ts : List Turn} {place : Nat}
    {pre post : List Step} {st : Step} (h : stepsAt place (m.steps ts) = pre ++ st :: post) :
    ∃ past t later, ts = past ++ t :: later ∧ stepsAt place (m.steps past) = pre ∧
      (m.afterTurns past).step? t = some st := by
  obtain ⟨-, before, after, hsteps, hbefore, -⟩ := exists_cut_of_stepsAt h
  obtain ⟨past, t, later, rfl, hpast, ht⟩ := exists_past hsteps
  exact ⟨past, t, later, rfl, by rw [hpast, hbefore], ht⟩

end Interleaving

end NavPolicy.Agent
