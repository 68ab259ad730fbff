import NavPolicy.Proofs.Agent.Alone
import NavPolicy.Proofs.Agent.Confluence

/-!
# The loop that runs its tasks whole

`Loop.serve` takes the commands first and then runs the tasks one after the other, each of them whole.  That is
one way in which the loop and its tasks can take turns (`Loop.exists_run_eq_serve`): where a program is free,
its turns can follow upon each other (`Program.advances_run`), so that every step of `Loop.serve` is one that
choices lead to.  `Schedule.ofLoop` is the moment of a schedule that the loop is at between such steps.
-/

namespace NavPolicy.Agent

variable {env : Surroundings} {c : Config}

namespace Schedule

/-- Whether choices lead from one moment of a schedule to another. -/
def Reaches (env : Surroundings) (c : Config) : Schedule → Schedule → Prop :=
  Relation.ReflTransGen fun m m' => ∃ choice, m' = m.choose env c choice

/-- A moment that choices lead to is one that some list of them does. -/
theorem Reaches.exists_run {m m' : Schedule} (h : Reaches env c m m') :
    ∃ choices, m.run env c choices = m' := by
  induction h using Relation.ReflTransGen.head_induction_on with
  | refl => exact ⟨[], rfl⟩
  | head hstep _ ih =>
    obtain ⟨choice, rfl⟩ := hstep
    obtain ⟨choices, hrun⟩ := ih
    exact ⟨choice :: choices, hrun⟩

/-! ## Programs that run whole -/

section Whole

variable {queue : List Command} {s : State} {replies : List Reply} {n : Nat}

/-- A free program may run whole where each of its turns is a choice.  `moment` is the schedule that has the
program in its place. -/
theorem reaches_run {α : Type} {p : Program α} (h : p.Free [])
    (moment : Program α → State → List Resource → Schedule)
    (hstep : ∀ p s held, p.value? = none → ∃ choice, (moment p s held).choose env c choice =
      moment (p.advance env held s).1 (p.advance env held s).2.1 (p.advance env held s).2.2)
    (s : State) :
    Reaches env c (moment p s []) (moment (.done (p.run env s).1) (p.run env s).2 []) := by
  refine (Program.advances_run h env s).lift (fun x => moment x.1 x.2.1 x.2.2) ?_
  rintro ⟨q, t, held⟩ y ⟨hq, rfl⟩
  obtain ⟨choice, hchoice⟩ := hstep q t held hq
  exact ⟨choice, hchoice.symm⟩

/-- What the loop does before its first command may be done whole. -/
theorem reaches_starting {p : Program Unit} (h : p.Free []) (queue : List Command) (s : State) :
    Reaches env c ⟨.starting p, queue, ⟨s, [], []⟩, [], 0⟩
      ⟨.listening, queue, ⟨(p.run env s).2, [], []⟩, [], 0⟩ := by
  refine (reaches_run h (fun p s held => ⟨.starting p, queue, ⟨s, held, []⟩, [], 0⟩) ?_ s).tail ⟨.loop, rfl⟩
  intro p s held hp
  cases p with
  | done u => exact absurd hp (by simp [Program.value?])
  | ask a next => exact ⟨.loop, rfl⟩

/-- An answer may be worked out whole. -/
theorem reaches_answering {p : Program Reply} (h : p.Free []) {programs : List (Program Unit)} :
    Reaches env c ⟨.answering p, queue, ⟨s, [], programs⟩, replies, n⟩
      ⟨.listening, queue, ⟨(p.run env s).2, [], programs⟩, replies ++ [(p.run env s).1], n⟩ := by
  refine (reaches_run h (fun p s held => ⟨.answering p, queue, ⟨s, held, programs⟩, replies, n⟩) ?_ s).tail
    ⟨.loop, rfl⟩
  intro p s held hp
  cases p with
  | done reply => exact absurd hp (by simp [Program.value?])
  | ask a next => exact ⟨.loop, rfl⟩

/-- A turn of the task behind those that come before it. -/
theorem choose_task {phase : LoopPhase} {held : List Resource} {before after : List (Program Unit)}
    (p : Program Unit) :
    choose env c ⟨phase, queue, ⟨s, held, before ++ p :: after⟩, replies, n⟩ (.task before.length) =
      ⟨phase, queue, ⟨(p.advance env held s).2.1, (p.advance env held s).2.2,
        before ++ (p.advance env held s).1 :: after⟩, replies, n⟩ := by
  have hplace : (before ++ p :: after)[before.length]? = some p := by
    rw [List.getElem?_append_right (Nat.le_refl _), Nat.sub_self]
    rfl
  have hset (q : Program Unit) : (before ++ p :: after).set before.length q = before ++ q :: after := by
    rw [List.set_append_right _ _ (Nat.le_refl _), Nat.sub_self]
    rfl
  simp only [choose, Interleaving.turn, hplace, hset]

/-- The tasks may be run one after the other, each of them whole, whatever the loop does. -/
theorem reaches_settle (phase : LoopPhase) {programs : List (Program Unit)}
    (h : ∀ p ∈ programs, p.Free []) (ended : Nat) :
    Reaches env c
      ⟨phase, queue, ⟨s, [], List.replicate ended (.done ()) ++ programs⟩, replies, n⟩
      ⟨phase, queue, ⟨programs.foldl (fun s p => (p.run env s).2) s, [],
        List.replicate (ended + programs.length) (.done ())⟩, replies, n⟩ := by
  induction programs generalizing ended s with
  | nil =>
    rw [List.append_nil]
    exact .refl
  | cons p programs ih =>
    obtain ⟨hp, hrest⟩ := List.forall_mem_cons.1 h
    have hfirst : Reaches env c
        ⟨phase, queue, ⟨s, [], List.replicate ended (.done ()) ++ p :: programs⟩, replies, n⟩
        ⟨phase, queue, ⟨(p.run env s).2, [], List.replicate ended (.done ()) ++ .done () :: programs⟩,
          replies, n⟩ :=
      reaches_run hp
        (fun p s held => ⟨phase, queue, ⟨s, held, List.replicate ended (.done ()) ++ p :: programs⟩,
          replies, n⟩)
        (fun p s held _ => ⟨_, choose_task p⟩) s
    have hended : List.replicate ended (.done ()) ++ .done () :: programs =
        List.replicate (ended + 1) (.done ()) ++ programs := by
      rw [List.replicate_succ', List.append_assoc]
      rfl
    have hlength : ended + 1 + programs.length = ended + (p :: programs).length := by
      rw [List.length_cons]
      omega
    have hothers := ih (s := (p.run env s).2) hrest (ended + 1)
    rw [← hended, hlength] at hothers
    exact hfirst.trans hothers

/-- The ends of tasks may be taken, as many as there are. -/
theorem reaches_join {total : Nat} (count : Nat) (h : n + count ≤ total) :
    Reaches env c ⟨.listening, queue, ⟨s, [], List.replicate total (.done ())⟩, replies, n⟩
      ⟨.listening, queue, ⟨s, [], List.replicate total (.done ())⟩, replies, n + count⟩ := by
  induction count with
  | zero => exact .refl
  | succ count ih =>
    refine (ih (by omega)).tail ⟨.join, ?_⟩
    have hended : n + count < (List.replicate total (Program.done ())).countP
        fun p => p.value?.isSome := by
      rw [List.countP_replicate]
      show n + count < total
      omega
    exact (if_pos hended).symm

end Whole

end Schedule

/-! ## The loop -/

namespace Loop

variable {l : Loop}

/-- A loop stops only where a command says so. -/
theorem running_take {command : Command} (hrunning : l.running = true) (hne : command ≠ .shutdown) :
    (l.take env c command).running = true := by
  cases command with
  | shutdown => exact absurd rfl hne
  | _ => simp only [take, Command.service, hrunning, Bool.not_true, Bool.false_eq_true, if_false]

/-- A loop that has stopped takes no command; those with an answer are told so. -/
theorem foldl_take_of_stopped (h : l.running = false) (commands : List Command) :
    commands.foldl (take env c) l = { l with replies := l.replies ++ Command.dropped commands } := by
  induction commands generalizing l with
  | nil => rw [Command.dropped, List.filter_nil, List.map_nil, List.append_nil, List.foldl_nil]
  | cons command commands ih =>
    rw [List.foldl_cons, take, h, Bool.not_false, if_pos rfl]
    split
    · next hreply =>
      rw [ih rfl, Command.dropped, Command.dropped, List.filter_cons_of_pos hreply, List.append_assoc]
      rfl
    · next hreply =>
      have hdropped : Command.dropped (command :: commands) = Command.dropped commands := by
        rw [Command.dropped, List.filter_cons_of_neg hreply, Command.dropped]
      rw [ih h, hdropped, h]

/-- The tasks of a loop are free. -/
theorem free_tasks_take {command : Command} (h : ∀ p ∈ l.tasks, p.Free []) :
    ∀ p ∈ (l.take env c command).tasks, p.Free [] := by
  have hfree := free_service c command
  rw [take]
  split
  · split <;> exact h
  · split
    · next p hservice =>
      rw [hservice] at hfree
      exact List.forall_mem_append.2 ⟨h, List.forall_mem_singleton.2 hfree⟩
    · exact h
    · exact h

/-- What a loop starts for its commands is free. -/
theorem free_tasks_foldl_take (commands : List Command) (h : ∀ p ∈ l.tasks, p.Free []) :
    ∀ p ∈ (commands.foldl (take env c) l).tasks, p.Free [] := by
  induction commands generalizing l with
  | nil => exact h
  | cons command commands ih => exact ih (free_tasks_take h)

/-- The refreshes of the schedule are free. -/
theorem free_tasks_tick (count : Nat) (h : ∀ p ∈ l.tasks, p.Free []) :
    ∀ p ∈ (l.tick c count).tasks, p.Free [] := by
  rw [tick]
  split
  · refine List.forall_mem_append.2 ⟨h, fun p hp => ?_⟩
    rw [List.eq_of_mem_replicate hp]
    exact free_refreshTask c
  · exact h

end Loop

namespace Schedule

/-- The moment at which a loop is free to take a command, behind tasks that have ended and whose end it has
taken. -/
def ofLoop (l : Loop) (queue : List Command) (ended : Nat) : Schedule :=
  ⟨.listening, queue, ⟨l.state, [], List.replicate ended (.done ()) ++ l.tasks⟩, l.replies, ended⟩

variable {l : Loop} {queue : List Command} {ended : Nat}

/-- A command that does not say to stop may be taken. -/
theorem reaches_take {command : Command} (hrunning : l.running = true) (hne : command ≠ .shutdown) :
    Reaches env c (ofLoop l (command :: queue) ended) (ofLoop (l.take env c command) queue ended) := by
  have hfree := free_service c command
  cases hservice : command.service c with
  | task p =>
    refine .single ⟨.loop, ?_⟩
    simp only [ofLoop, choose, loopTurn, takeCommand, spawn, Loop.take, hrunning, hservice,
      Bool.not_true, Bool.false_eq_true, if_false, List.append_assoc]
  | answer p =>
    rw [hservice] at hfree
    have hbegin : Reaches env c (ofLoop l (command :: queue) ended)
        { ofLoop l queue ended with phase := .answering p } := by
      refine .single ⟨.loop, ?_⟩
      simp only [ofLoop, choose, loopTurn, takeCommand, hservice]
    have hend := hbegin.trans (reaches_answering hfree)
    simp only [Loop.take, hrunning, hservice, Bool.not_true, Bool.false_eq_true, if_false]
    exact hend
  | stop =>
    cases command with
    | shutdown => exact absurd rfl hne
    | _ => cases hservice

/-- Refreshes of the schedule may be taken. -/
theorem reaches_tick (hrunning : l.running = true) (count : Nat) :
    Reaches env c (ofLoop l queue ended) (ofLoop (l.tick c count) queue ended) := by
  simp only [Loop.tick, hrunning, if_true]
  induction count with
  | zero =>
    rw [List.replicate_zero, List.append_nil]
    exact .refl
  | succ count ih =>
    refine ih.tail ⟨.tick, ?_⟩
    simp only [ofLoop, choose, spawn, List.replicate_succ', List.append_assoc]

/-- The tasks that have come up may be run, and their ends taken. -/
theorem reaches_settled (h : ∀ p ∈ l.tasks, p.Free []) :
    Reaches env c (ofLoop l queue ended) (ofLoop (l.settle env) queue (ended + l.tasks.length)) := by
  refine (reaches_settle .listening h ended).trans ?_
  simp only [ofLoop, Loop.settle, List.append_nil]
  exact reaches_join l.tasks.length (Nat.le_refl _)

/-- To stop with commands in the queue is to have answered that they are lost. -/
theorem close_dropped (m : Schedule) :
    m.close = { m with queue := [], replies := m.replies ++ Command.dropped m.queue }.close := by
  simp only [close, List.filter_nil, List.map_nil, List.append_nil]
  rfl

/-- A loop with tasks that takes no more commands waits, and gives a notice of it; one without tasks gives
none. -/
theorem close_ofLoop : (ofLoop l [] ended).close =
    { ofLoop (if l.tasks.isEmpty then l else l.note (.info s!"Waiting for {l.tasks.length} pending tasks"))
        [] ended with phase := .waiting } := by
  have hpending : (List.replicate ended (Program.done ()) ++ l.tasks).length - ended = l.tasks.length := by
    rw [List.length_append, List.length_replicate, Nat.add_sub_cancel_left]
  rw [close]
  simp only [ofLoop, pending, hpending, List.filter_nil, List.map_nil, List.append_nil]
  obtain ⟨state, tasks, replies, running⟩ := l
  cases tasks with
  | nil => rfl
  | cons p tasks => rfl

/-- A loop that takes no more commands may run its tasks and stop. -/
theorem reaches_finish (h : ∀ p ∈ l.tasks, p.Free []) :
    Reaches env c (ofLoop l [] ended).close
      ⟨.stopped, [], ⟨(l.finish env).state, [], List.replicate (ended + l.tasks.length) (.done ())⟩,
        (l.finish env).replies, ended⟩ := by
  rw [close_ofLoop, Loop.finish]
  generalize hwaiting : (if l.tasks.isEmpty then l else _) = waiting
  have htasks : waiting.tasks = l.tasks := by
    rw [← hwaiting]
    split <;> rfl
  rw [← htasks] at h ⊢
  refine (reaches_settle .waiting h ended).tail ⟨.loop, ?_⟩
  have hended : (List.replicate (ended + waiting.tasks.length) (Program.done ())).all
      (fun p => p.value?.isSome) = true := by
    refine List.all_eq_true.2 fun p hp => ?_
    rw [List.eq_of_mem_replicate hp]
    rfl
  exact (if_pos hended).symm

/-- The commands in the queue may be taken, up to the end of the queue or the command to stop. -/
theorem reaches_commands (commands : List Command) (hrunning : l.running = true) :
    let l' := commands.foldl (Loop.take env c) l
    Reaches env c (ofLoop l commands ended)
      (if l'.running then ofLoop l' [] ended else (ofLoop l' [] ended).close) := by
  intro l'
  induction commands generalizing l with
  | nil =>
    rw [show l' = l from rfl, if_pos hrunning]
    exact .refl
  | cons command commands ih =>
    by_cases hstop : command = .shutdown
    · subst hstop
      have htake : l.take env c .shutdown = { l with running := false } := by
        simp only [Loop.take, Command.service, hrunning, Bool.not_true, Bool.false_eq_true, if_false]
      have hlost : l' = { l with replies := l.replies ++ Command.dropped commands, running := false } := by
        rw [← Loop.foldl_take_of_stopped (l := { l with running := false }) rfl, ← htake, ← List.foldl_cons]
      refine .single ⟨.loop, ?_⟩
      rw [hlost, if_neg Bool.false_ne_true]
      exact (close_dropped (ofLoop l commands ended)).symm
    · exact (reaches_take hrunning hstop).trans (ih (Loop.running_take hrunning hstop))

/-- Where the queue stays open behind the commands, the refreshes of the schedule and the tasks may be run before
the loop stops; where a command has said to stop, it has stopped. -/
theorem reaches_close (milliseconds : Nat) (hfree : ∀ p ∈ l.tasks, p.Free []) {m : Schedule}
    (h : Reaches env c m (if l.running then ofLoop l [] 0 else (ofLoop l [] 0).close)) :
    let l' := if l.running && 0 < milliseconds then
        (l.tick c (Loop.ticksWithin c milliseconds)).settle env else l
    (∀ p ∈ l'.tasks, p.Free []) ∧ ∃ ended, Reaches env c m (ofLoop l' [] ended).close := by
  intro l'
  simp only [l']
  cases hrunning : l.running with
  | false =>
    rw [hrunning, if_neg Bool.false_ne_true] at h
    exact ⟨hfree, 0, h⟩
  | true =>
    rw [hrunning, if_pos rfl] at h
    rw [Bool.true_and]
    split
    · have hticks := h.trans (reaches_tick hrunning (Loop.ticksWithin c milliseconds))
      have hsettled := hticks.trans (reaches_settled (Loop.free_tasks_tick _ hfree))
      exact ⟨List.forall_mem_nil _, _, hsettled.tail ⟨.loop, rfl⟩⟩
    · exact ⟨hfree, 0, h.tail ⟨.loop, rfl⟩⟩

end Schedule

/-- The loop that runs its tasks whole comes to what choices come to, with the same replies, so that what holds
of every schedule holds of it. -/
theorem Loop.exists_run_eq_serve (env : Surroundings) (c : Config) (commands : List Command)
    (milliseconds : Nat) (s : State) :
    ∃ choices, let m := (Schedule.start c commands s).run env c choices
      m.phase = .stopped ∧ m.tasks.state = (serve env c commands milliseconds s).state ∧
        m.replies = (serve env c commands milliseconds s).replies := by
  have hbegin : Schedule.Reaches env c (Schedule.start c commands s)
      (Schedule.ofLoop (start env c s) commands 0) :=
    Schedule.reaches_starting (free_startup c) commands s
  have hfree : ∀ p ∈ (commands.foldl (take env c) (start env c s)).tasks, p.Free [] :=
    free_tasks_foldl_take commands (List.forall_mem_nil _)
  have hcommands := hbegin.trans (Schedule.reaches_commands commands rfl)
  obtain ⟨hfree, ended, hclose⟩ := Schedule.reaches_close milliseconds hfree hcommands
  have hfinish := hclose.trans (Schedule.reaches_finish hfree)
  obtain ⟨choices, hrun⟩ := Schedule.Reaches.exists_run hfinish
  refine ⟨choices, ?_⟩
  rw [hrun]
  exact ⟨rfl, rfl, rfl⟩

end NavPolicy.Agent
