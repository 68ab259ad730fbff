import NavPolicy.Proofs.Agent.Tasks

/-!
# The order of turns is of no account

The loop and its tasks may take turns in many ways, and they all come to the same
(`Schedule.run_confluent`): the overrides are those of the navigations one after the other, in some
order, passwords are answered as at the start, and what stands behind the command to stop is lost
without a trace.

The proof follows the loop through its phases.  `Schedule.Serving` says in each phase which commands
have been taken, that their tasks are under way, and that those with an answer have it; every choice
preserves it (`Schedule.Serving.choose`).  That behind the command to stop nothing matters is a
simulation by the loop with a shorter queue (`Schedule.AgreesUpTo`), and needs nothing of the
surroundings.
-/

namespace NavPolicy.Agent

variable {env : Surroundings} {x : Enforcement}

/-! ## The reference -/

/-- The state after the refresh before the first command, which is made if a policy URL is set and can
be read. -/
def State.afterStartup (env : Surroundings) (c : Config) (s : State) : State :=
  match ((policyUrl c).run env s).1 with
  | .ok (some _) => ((refresh c).run env s).2
  | _ => s

/-- The state after navigations, one after the other. -/
def State.afterNavigations (env : Surroundings) (c : Config) (s : State) (ns : List Navigation) :
    State := ns.foldl (fun s n => ((navigate c n).run env s).2) s

namespace Command

/-- The commands before the first that says to stop. -/
def beforeShutdown (queue : List Command) : List Command := queue.takeWhile (· ≠ .shutdown)

/-- The commands from the first on that says to stop. -/
def fromShutdown (queue : List Command) : List Command := queue.dropWhile (· ≠ .shutdown)

/-- The navigations among commands. -/
def navigations (commands : List Command) : List Navigation :=
  commands.filterMap fun
    | .navigate n => some n
    | _ => none

/-- The replies to commands that are never taken. -/
def dropped (commands : List Command) : List Reply :=
  (commands.filter hasReply).map fun _ => .dropped

/-- Whether replies answer the commands that have one, in order. -/
def Answered (env : Surroundings) (s : State) (commands : List Command) (replies : List Reply) :
    Prop := List.Forall₂ (IsAnswer env s) (commands.filter hasReply) replies

/-- The overrides that commands owe are those of the navigations among them. -/
theorem flatMap_overrides {env : Surroundings} {live : String → Bool} {x : Enforcement}
    (commands : List Command) : commands.flatMap (overrides env live x) =
      (navigations commands).flatMap (x.overrides env live) := by
  induction commands with
  | nil => rfl
  | cons command commands ih =>
    rw [List.flatMap_cons, ih]
    cases command <;> rfl

/-- A command without answer adds none. -/
theorem Answered.concat_of_not_hasReply {env : Surroundings} {s : State} {commands : List Command}
    {replies : List Reply} {command : Command} (h : Answered env s commands replies)
    (hreply : command.hasReply = false) : Answered env s (commands ++ [command]) replies := by
  rw [Answered, List.filter_append, List.filter_cons_of_neg (by simp [hreply]), List.filter_nil,
    List.append_nil]
  exact h

/-- A command with an answer adds it. -/
theorem Answered.concat {env : Surroundings} {s : State} {commands : List Command}
    {replies : List Reply} {command : Command} {reply : Reply} (h : Answered env s commands replies)
    (hreply : command.hasReply = true) (hanswer : command.IsAnswer env s reply) :
    Answered env s (commands ++ [command]) (replies ++ [reply]) := by
  rw [Answered, List.filter_append, List.filter_cons_of_pos hreply, List.filter_nil]
  exact List.rel_append h (.cons hanswer .nil)

/-- What is dropped of two queues is what is dropped of each. -/
theorem dropped_append (xs ys : List Command) : dropped (xs ++ ys) = dropped xs ++ dropped ys := by
  rw [dropped, List.filter_append, List.map_append]
  rfl

variable {taken rest : List Command}

/-- A command that is taken goes from what is left of a queue to what is taken of it. -/
theorem taken_concat {queue : List Command} {command : Command}
    (hqueue : queue = taken ++ command :: rest) (htaken : Command.shutdown ∉ taken)
    (hne : command ≠ .shutdown) :
    queue = (taken ++ [command]) ++ rest ∧ Command.shutdown ∉ taken ++ [command] := by
  refine ⟨?_, ?_⟩
  · rw [hqueue, List.append_assoc, List.singleton_append]
  · rw [List.mem_append, List.mem_singleton, not_or]
    exact ⟨htaken, hne.symm⟩

/-- Where no command has said to stop, and then one does, just the former come before it. -/
theorem beforeShutdown_append (h : Command.shutdown ∉ taken)
    (hrest : rest = [] ∨ ∃ lost, rest = .shutdown :: lost) :
    beforeShutdown (taken ++ rest) = taken ∧ fromShutdown (taken ++ rest) = rest := by
  have hopen : ∀ command ∈ taken, decide (command ≠ .shutdown) = true := by
    intro command hmem
    rw [decide_eq_true_iff]
    rintro rfl
    exact h hmem
  rw [beforeShutdown, fromShutdown, List.takeWhile_append_of_pos hopen,
    List.dropWhile_append_of_pos hopen]
  rcases hrest with rfl | ⟨lost, rfl⟩
  · exact ⟨List.append_nil _, rfl⟩
  · exact ⟨List.append_nil _, rfl⟩

end Command

/-- What the loop does before its first command comes to the same as the refresh does. -/
theorem enforcement_run_startup (c : Config) (s : State) :
    ((startup c).run env s).2.enforcement = (s.afterStartup env c).enforcement := by
  rw [startup, State.afterStartup, Program.run_bind,
    (reads_policyUrl c).run_of_reads env s]
  cases ((policyUrl c).run env s).1 with
  | error e => rfl
  | ok url? =>
    cases url? with
    | none => rfl
    | some url =>
      show ((refreshTask c).run env s).2.enforcement = _
      rw [refreshTask, Program.run_bind, (onlyRecords_reportRefresh _).enforcement_run]

/-- Once the refresh before the first command is made, a refresh changes nothing. -/
theorem steady_afterStartup (hsource : ∀ m n url, env.source m url = env.source n url)
    (c : Config) (s : State) : (s.afterStartup env c).enforcement.Steady env c := by
  have hurl : ((policyUrl c).run env s).1 = s.enforcement.policyUrl env c :=
    (gives_policyUrl env _ c s rfl).1
  rw [State.afterStartup, hurl]
  cases h : s.enforcement.policyUrl env c with
  | error e => exact fun url hset => absurd (h.symm.trans hset) (by simp)
  | ok url? =>
    cases url? with
    | none => exact fun url hset => absurd (h.symm.trans hset) (by simp)
    | some url => exact Refreshed.steady hsource (refreshed c s)

/-- Navigations that are answered one after the other send each its override. -/
theorem sent_afterNavigations {live : String → Bool}
    (hlive : ∀ count url, env.answers count url = live url) (hlistening : env.listening = true)
    (c : Config) {s : State} (hs : s.enforcement.StandsAs env x) (ns : List Navigation) :
    (s.afterNavigations env c ns).sent = s.sent ++ ns.flatMap (x.overrides env live) := by
  induction ns generalizing s with
  | nil => exact (List.append_nil _).symm
  | cons n ns ih =>
    obtain ⟨hafter, hsent, -⟩ := (owes_navigate hlive hlistening c n).run hs
    have hrest := ih hafter
    rw [hsent, List.append_assoc] at hrest
    exact hrest

/-! ## The loop -/

instance (phase : LoopPhase) : Decidable (phase = .stopped) :=
  match phase with
  | .stopped => isTrue rfl
  | .starting _ | .listening | .answering _ | .waiting => isFalse nofun

/-- A program that has had a turn comes to what it would have come to. -/
theorem Program.run_advance {α : Type} (p : Program α) (env : Surroundings)
    (held : List Resource) (s : State) :
    (p.advance env held s).1.run env (p.advance env held s).2.1 = p.run env s := by
  cases p with
  | done v => rfl
  | ask a next =>
    rw [advance]
    split <;> rfl

/-- How far the loop has got with a queue: what it has taken, what is due for it, and what is left. -/
inductive Schedule.Serving (env : Surroundings) (live : String → Bool) (s : State)
    (queue : List Command) : Schedule → Prop
  | starting {p : Program Unit} {state : State} {held : List Resource} {joined : Nat} :
      (p.run env state).2.enforcement = s.enforcement →
      Serving env live s queue ⟨.starting p, queue, ⟨state, held, []⟩, [], joined⟩
  | listening {taken rest : List Command} {tasks : Interleaving Unit} {replies : List Reply}
      {joined : Nat} :
      queue = taken ++ rest → .shutdown ∉ taken →
      tasks.Underway env s (taken.flatMap (Command.overrides env live s.enforcement)) →
      Command.Answered env s taken replies →
      Serving env live s queue ⟨.listening, rest, tasks, replies, joined⟩
  | answering {taken rest : List Command} {command : Command} {p : Program Reply}
      {tasks : Interleaving Unit} {replies : List Reply} {joined : Nat} :
      queue = taken ++ command :: rest → .shutdown ∉ taken → command ≠ .shutdown →
      command.hasReply = true → p.Owes env s.enforcement (command.IsAnswer env s) [] →
      tasks.Underway env s
        ((taken ++ [command]).flatMap (Command.overrides env live s.enforcement)) →
      Command.Answered env s taken replies →
      Serving env live s queue ⟨.answering p, rest, tasks, replies, joined⟩
  | waiting {tasks : Interleaving Unit} {answers : List Reply} {joined : Nat} :
      tasks.Underway env s
        ((Command.beforeShutdown queue).flatMap (Command.overrides env live s.enforcement)) →
      Command.Answered env s (Command.beforeShutdown queue) answers →
      Serving env live s queue
        ⟨.waiting, [], tasks, answers ++ Command.dropped (Command.fromShutdown queue), joined⟩
  | stopped {tasks : Interleaving Unit} {answers : List Reply} {joined : Nat} :
      tasks.Underway env s
        ((Command.beforeShutdown queue).flatMap (Command.overrides env live s.enforcement)) →
      Command.Answered env s (Command.beforeShutdown queue) answers → tasks.hasEnded = true →
      Serving env live s queue
        ⟨.stopped, [], tasks, answers ++ Command.dropped (Command.fromShutdown queue), joined⟩

namespace Schedule

variable {live : String → Bool} {s : State} {queue : List Command} {m : Schedule} {c : Config}

/-- A loop that takes no more commands waits, with the answers to those that are lost. -/
theorem serving_close {taken rest : List Command} {tasks : Interleaving Unit}
    {replies : List Reply} (hqueue : queue = taken ++ rest) (htaken : .shutdown ∉ taken)
    (hrest : rest = [] ∨ ∃ lost, rest = .shutdown :: lost)
    (htasks : tasks.Underway env s (taken.flatMap (Command.overrides env live s.enforcement)))
    (hreplies : Command.Answered env s taken replies) (phase : LoopPhase) {left : List Command}
    (joined : Nat)
    (hleft : Command.dropped left = Command.dropped rest) :
    (close ⟨phase, left, tasks, replies, joined⟩).Serving env live s queue := by
  obtain ⟨hbefore, hfrom⟩ := Command.beforeShutdown_append htaken hrest
  rw [← hqueue] at hbefore hfrom
  rw [← hbefore] at htasks hreplies
  rw [← hfrom] at hleft
  rw [Command.dropped, Command.dropped] at hleft
  rw [close]
  dsimp only
  rw [hleft]
  split
  · exact .waiting htasks hreplies
  · exact .waiting (htasks.note _) hreplies

section Choices

variable (hsource : ∀ m n url, env.source m url = env.source n url)
variable (hlive : ∀ count url, env.answers count url = live url)
variable (hlistening : env.listening = true) (hsteady : s.enforcement.Steady env c)

include hsource hlive hlistening hsteady

/-- Taking a command goes on with the queue. -/
theorem serving_takeCommand {taken rest : List Command} {tasks : Interleaving Unit}
    {replies : List Reply} (hqueue : queue = taken ++ rest) (htaken : .shutdown ∉ taken)
    (htasks : tasks.Underway env s (taken.flatMap (Command.overrides env live s.enforcement)))
    (hreplies : Command.Answered env s taken replies) (joined : Nat) :
    (takeCommand c ⟨.listening, rest, tasks, replies, joined⟩).Serving env live s queue := by
  cases rest with
  | nil => exact serving_close hqueue htaken (.inl rfl) htasks hreplies .listening _ rfl
  | cons command rest =>
    have hservice := owes_service hlive hlistening hsource hsteady command
    rw [takeCommand]
    dsimp only
    cases hcommand : command.service c with
    | stop =>
      rw [hcommand] at hservice
      subst hservice
      -- the command to stop has no answer, so none is lost with it
      exact serving_close hqueue htaken (.inr ⟨rest, rfl⟩) htasks hreplies .listening _ rfl
    | answer p =>
      rw [hcommand] at hservice
      obtain ⟨hp, hreply, hne, hoverrides⟩ := hservice
      refine .answering hqueue htaken hne hreply hp ?_ hreplies
      rw [List.flatMap_append, List.flatMap_singleton, hoverrides, List.append_nil]
      exact htasks
    | task p =>
      rw [hcommand] at hservice
      obtain ⟨hp, hreply, hne⟩ := hservice
      obtain ⟨hqueue, htaken⟩ := Command.taken_concat hqueue htaken hne
      refine .listening hqueue htaken ?_ (hreplies.concat_of_not_hasReply hreply)
      rw [List.flatMap_append, List.flatMap_singleton]
      exact htasks.spawn hp

/-- A turn of the loop itself goes on with the queue. -/
theorem Serving.loopTurn (h : m.Serving env live s queue) :
    (m.loopTurn env c).Serving env live s queue := by
  cases h with
  | @starting p state held joined hp =>
    cases p with
    | done u => exact .listening rfl List.not_mem_nil (Interleaving.underway_nil hp) .nil
    | ask a next =>
      -- there are no tasks yet, so nothing comes between the turns of the loop
      have hnext := Program.run_advance (.ask a next) env held state
      exact .starting ((congrArg (fun r => r.2.enforcement) hnext).trans hp)
  | listening hqueue htaken htasks hreplies =>
    exact serving_takeCommand hsource hlive hlistening hsteady hqueue htaken htasks hreplies _
  | @answering taken rest command p tasks replies joined hqueue htaken hne hreply hp htasks hreplies =>
    cases p with
    | done reply =>
      obtain ⟨hqueue, htaken⟩ := Command.taken_concat hqueue htaken hne
      exact .listening hqueue htaken htasks (hreplies.concat hreply hp.2)
    | ask a next =>
      obtain ⟨hnext, htasks⟩ := htasks.advance hp
      exact .answering hqueue htaken hne hreply hnext htasks hreplies
  | @waiting tasks answers joined htasks hanswers =>
    rw [Schedule.loopTurn]
    dsimp only
    split
    · next hended => exact .stopped (htasks.note _) hanswers hended
    · exact .waiting htasks hanswers
  | stopped htasks hanswers hended => exact .stopped htasks hanswers hended

/-- Every choice goes on with the queue. -/
theorem Serving.choose (h : m.Serving env live s queue) (choice : Choice) :
    (m.choose env c choice).Serving env live s queue := by
  cases choice with
  | loop => exact h.loopTurn hsource hlive hlistening hsteady
  | tick =>
    cases h with
    | starting hp => exact .starting hp
    | listening hqueue htaken htasks hreplies =>
      have hspawned := htasks.spawn (owes_refreshTask hsource hsteady)
      rw [List.append_nil] at hspawned
      exact .listening hqueue htaken hspawned hreplies
    | answering hqueue htaken hne hreply hp htasks hreplies =>
      exact .answering hqueue htaken hne hreply hp htasks hreplies
    | waiting htasks hanswers => exact .waiting htasks hanswers
    | stopped htasks hanswers hended => exact .stopped htasks hanswers hended
  | join =>
    cases h with
    | starting hp => exact .starting hp
    | listening hqueue htaken htasks hreplies =>
      rw [Schedule.choose, join]
      dsimp only
      split <;> exact .listening hqueue htaken htasks hreplies
    | answering hqueue htaken hne hreply hp htasks hreplies =>
      exact .answering hqueue htaken hne hreply hp htasks hreplies
    | waiting htasks hanswers => exact .waiting htasks hanswers
    | stopped htasks hanswers hended => exact .stopped htasks hanswers hended
  | task place =>
    cases h with
    | starting hp => exact .starting hp
    | listening hqueue htaken htasks hreplies =>
      exact .listening hqueue htaken (htasks.turn place) hreplies
    | answering hqueue htaken hne hreply hp htasks hreplies =>
      exact .answering hqueue htaken hne hreply hp (htasks.turn place) hreplies
    | waiting htasks hanswers => exact .waiting (htasks.turn place) hanswers
    | stopped htasks hanswers hended =>
      refine .stopped (htasks.turn place) hanswers ?_
      rw [Interleaving.turn_of_hasEnded hended]
      exact hended

/-- All choices go on with the queue. -/
theorem Serving.run (h : m.Serving env live s queue) (choices : List Choice) :
    (m.run env c choices).Serving env live s queue := by
  induction choices generalizing m with
  | nil => exact h
  | cons choice choices ih => exact ih (h.choose hsource hlive hlistening hsteady choice)

end Choices

/-! ## Commands that are lost -/

/-- Whether two loops differ only in commands that stand behind one that says to stop. -/
inductive AgreesUpTo (lost : List Command) : Schedule → Schedule → Prop
  | taking (phase : LoopPhase) (queue : List Command) (tasks : Interleaving Unit)
      (replies : List Reply) (joined : Nat) :
      AgreesUpTo lost ⟨phase, queue ++ .shutdown :: lost, tasks, replies, joined⟩
        ⟨phase, queue ++ [.shutdown], tasks, replies, joined⟩
  | waiting (tasks : Interleaving Unit) (replies : List Reply) (joined : Nat) :
      AgreesUpTo lost ⟨.waiting, [], tasks, replies ++ Command.dropped lost, joined⟩
        ⟨.waiting, [], tasks, replies, joined⟩
  | stopped (tasks : Interleaving Unit) (replies : List Reply) (joined : Nat) :
      AgreesUpTo lost ⟨.stopped, [], tasks, replies ++ Command.dropped lost, joined⟩
        ⟨.stopped, [], tasks, replies, joined⟩

variable {lost : List Command} {m' : Schedule}

/-- Loops that agree go on to agree when both take no more commands. -/
theorem agreesUpTo_close {phase : LoopPhase} {tasks : Interleaving Unit} {replies : List Reply}
    {joined : Nat} {left right : List Command}
    (h : Command.dropped left = Command.dropped right ++ Command.dropped lost) :
    AgreesUpTo lost (close ⟨phase, left, tasks, replies, joined⟩)
      (close ⟨phase, right, tasks, replies, joined⟩) := by
  rw [Command.dropped, Command.dropped] at h
  rw [close, close]
  dsimp only
  rw [h, ← List.append_assoc]
  -- the tasks are the same, so both loops wait for as many of them
  show AgreesUpTo lost (if pending ⟨phase, right, tasks, replies, joined⟩ = 0 then _ else _)
    (if pending ⟨phase, right, tasks, replies, joined⟩ = 0 then _ else _)
  split
  · exact .waiting _ _ _
  · exact .waiting _ _ _

/-- Loops that agree go on to agree when both take a command. -/
theorem agreesUpTo_takeCommand (queue : List Command) {tasks : Interleaving Unit}
    {replies : List Reply} {joined : Nat} :
    AgreesUpTo lost (takeCommand c ⟨.listening, queue ++ .shutdown :: lost, tasks, replies, joined⟩)
      (takeCommand c ⟨.listening, queue ++ [.shutdown], tasks, replies, joined⟩) := by
  cases queue with
  | nil => exact agreesUpTo_close rfl
  | cons command queue =>
    rw [List.cons_append, List.cons_append, takeCommand, takeCommand]
    dsimp only
    cases command.service c with
    | task p => exact .taking _ queue _ _ _
    | answer p => exact .taking _ queue _ _ _
    | stop =>
      refine agreesUpTo_close ?_
      rw [Command.dropped_append, Command.dropped_append, List.append_assoc]
      rfl

/-- Loops that agree go on to agree. -/
theorem AgreesUpTo.choose (h : AgreesUpTo lost m m') (choice : Choice) :
    AgreesUpTo lost (m.choose env c choice) (m'.choose env c choice) := by
  cases choice with
  | task place => cases h <;> constructor
  | tick =>
    cases h with
    | taking phase queue tasks replies joined => cases phase <;> exact .taking _ queue _ _ _
    | waiting => exact .waiting _ _ _
    | stopped => exact .stopped _ _ _
  | join =>
    cases h with
    | taking phase queue tasks replies joined =>
      cases phase with
      | listening =>
        rw [Schedule.choose, Schedule.choose, join, join]
        dsimp only
        split <;> exact .taking _ queue _ _ _
      | _ => exact .taking _ queue _ _ _
    | waiting => exact .waiting _ _ _
    | stopped => exact .stopped _ _ _
  | loop =>
    cases h with
    | taking phase queue tasks replies joined =>
      cases phase with
      | starting p => cases p <;> exact .taking _ queue _ _ _
      | listening => exact agreesUpTo_takeCommand queue
      | answering p => cases p <;> exact .taking _ queue _ _ _
      | waiting =>
        rw [Schedule.choose, Schedule.choose, Schedule.loopTurn, Schedule.loopTurn]
        dsimp only
        split <;> exact .taking _ queue _ _ _
      | stopped => exact .taking _ queue _ _ _
    | waiting tasks replies joined =>
      rw [Schedule.choose, Schedule.choose, Schedule.loopTurn, Schedule.loopTurn]
      dsimp only
      split
      · exact .stopped _ _ _
      · exact .waiting _ _ _
    | stopped => exact .stopped _ _ _

/-- Loops that agree agree after all choices. -/
theorem AgreesUpTo.run (h : AgreesUpTo lost m m') (choices : List Choice) :
    AgreesUpTo lost (m.run env c choices) (m'.run env c choices) := by
  induction choices generalizing m m' with
  | nil => exact h
  | cons choice choices ih => exact ih (h.choose choice)

/-! ## The end -/

/-- The loop has got nowhere with its queue at its very start. -/
theorem serving_start {live : String → Bool} (c : Config) (queue : List Command)
    (s : State) : (start c queue s).Serving env live (s.afterStartup env c) queue :=
  .starting (enforcement_run_startup c s)

/-- A loop that has stopped has waited for its tasks and answered what it took. -/
theorem Serving.of_stopped {live : String → Bool} {s : State} {queue : List Command}
    {m : Schedule} (h : m.Serving env live s queue) (hstopped : m.phase = .stopped) :
    m.queue = [] ∧ m.tasks.hasEnded = true ∧
      m.tasks.Underway env s
        ((Command.beforeShutdown queue).flatMap (Command.overrides env live s.enforcement)) ∧
      ∃ answers, Command.Answered env s (Command.beforeShutdown queue) answers ∧
        m.replies = answers ++ Command.dropped (Command.fromShutdown queue) := by
  cases h with
  | stopped htasks hanswers hended => exact ⟨rfl, hended, htasks, _, hanswers, rfl⟩
  | _ => exact absurd hstopped nofun

/-- A loop that has stopped has left nothing but the replies to commands that are lost behind one that
agrees with it. -/
theorem AgreesUpTo.of_stopped {lost : List Command} {m m' : Schedule}
    (h : AgreesUpTo lost m m') (hqueue : m.queue = []) (hstopped : m.phase = .stopped) :
    m'.phase = .stopped ∧ m'.tasks = m.tasks ∧
      m.replies = m'.replies ++ Command.dropped lost := by
  cases h with
  | taking phase queue tasks replies joined => exact absurd hqueue (by simp)
  | waiting => exact absurd hstopped nofun
  | stopped tasks replies joined => exact ⟨rfl, rfl, rfl⟩

/-- However the loop, its tasks and the refreshes of its schedule take turns, where the source always
answers the same, pages answer always or never and the browser listens: once the loop has stopped, all
its tasks have ended, and the overrides sent are those of the refresh before the first command and of the
navigations before the first command to stop, one after the other.  Passwords and questions before it
have been answered once each, passwords as right after that refresh.  The commands behind it have no
answer, and without them all would have been the same. -/
theorem run_confluent {env : Surroundings} (c : Config) (s : State) (queue : List Command)
    (choices : List Choice) (hsource : ∀ m n url, env.source m url = env.source n url)
    (hpages : ∀ m n url, env.answers m url = env.answers n url)
    (hlistening : env.listening = true)
    (hstopped : ((start c queue s).run env c choices).phase = .stopped) :
    let final := (start c queue s).run env c choices
    let started := s.afterStartup env c
    let taken := Command.beforeShutdown queue
    final.tasks.hasEnded = true ∧
      final.tasks.state.sent.Perm
        (started.afterNavigations env c (Command.navigations taken)).sent ∧
      (∃ answers, Command.Answered env started taken answers ∧
        final.replies = answers ++ Command.dropped (Command.fromShutdown queue)) ∧
      ∀ before lost, queue = before ++ .shutdown :: lost →
        let alone := (start c (before ++ [.shutdown]) s).run env c choices
        alone.phase = .stopped ∧ alone.tasks = final.tasks ∧
          final.replies = alone.replies ++ Command.dropped lost := by
  intro final started taken
  have hlive : ∀ count url, env.answers count url = env.answers 0 url :=
    fun count => hpages count 0
  have hsteady : started.enforcement.Steady env c := steady_afterStartup hsource c s
  have hserving : final.Serving env (env.answers 0) started queue :=
    (serving_start c queue s).run hsource hlive hlistening hsteady choices
  obtain ⟨hqueue, hended, htasks, hanswers⟩ := hserving.of_stopped hstopped
  refine ⟨hended, ?_, hanswers, ?_⟩
  · have hsent := sent_afterNavigations hlive hlistening c (.refl started.enforcement)
      (Command.navigations taken)
    rw [hsent, ← Command.flatMap_overrides]
    exact htasks.sent_of_hasEnded hended
  · intro before lost hlost
    have hagrees : AgreesUpTo lost (start c queue s) (start c (before ++ [.shutdown]) s) := by
      rw [hlost]
      exact .taking _ before _ _ _
    exact (hagrees.run choices).of_stopped hqueue hstopped

/-- A navigation that takes turns with a refresh is answered by the rules that the refresh leaves as
they are; the one behind the end is lost. -/
theorem run_confluent_navigate_during_refresh :
    let c : Config := { Config.default with managedPolicyUrl := some "https://policy.example" }
    let env : Surroundings := { Surroundings.offline "no route" ⟨0, 0⟩ with
      source := fun _ _ => .ok "urls: [\x7burl: 'a*', html: q\x7d]" }
    let queue : List Command :=
      [.refresh, .navigate ⟨7, .loading, some "ab"⟩, .verifyPassword "x", .shutdown,
        .navigate ⟨8, .loading, some "ab"⟩, .status]
    let choices := List.replicate 40 .loop ++
      (List.replicate 25 [Choice.task 1, .task 0]).flatten ++ [.loop]
    let final := (start c queue (.initial .empty .empty)).run env c choices
    final.phase = .stopped ∧
      final.tasks.state.sent = [⟨7, "data:text/html;charset=utf-8,q"⟩] ∧
      ∃ answer, final.replies = [answer, .dropped] ∧
        Command.IsAnswer env ((State.initial .empty .empty).afterStartup env c)
          (.verifyPassword "x") answer := by
  intro c env queue choices final
  have hstopped : final.phase = .stopped := by decide +kernel
  obtain ⟨-, -, ⟨answers, hanswers, hreplies⟩, -⟩ :=
    run_confluent c (.initial .empty .empty) queue choices (fun _ _ _ => rfl) (fun _ _ _ => rfl) rfl
      hstopped
  refine ⟨hstopped, by decide +kernel, ?_⟩
  obtain ⟨answer, rest, hanswer, hrest, rfl⟩ := List.forall₂_cons_left_iff.1 hanswers
  obtain rfl := List.forall₂_nil_left_iff.1 hrest
  exact ⟨answer, hreplies, hanswer⟩

end Schedule

end NavPolicy.Agent
