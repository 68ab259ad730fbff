import Mathlib.Logic.Relation
import NavPolicy.Agent.Interleaving
import NavPolicy.Agent.Loop
import NavPolicy.Proofs.Agent.Protocol

/-!
# Programs that nothing holds up

Where nothing else is under way, a program waits only for a resource that it holds itself.  The tasks of the
agent take no such resource, and give back what they have taken (`free_refreshTask`, `free_navigateTask`), so
that turn by turn each of them comes to what its run comes to (`Program.advances_run`).
-/

namespace NavPolicy.Agent

open Program (perform notes)

/-! ## Holding resources -/

/-- Whether an action neither takes a resource nor gives one back. -/
def Action.LeavesResources : Action → Prop
  | acquire _ | release _ => False
  | _ => True

/-- The protocol of programs that take no resource they hold; the stances are the resources held. -/
inductive HoldStep : Protocol (List Resource)
  | take {held : List Resource} {r : Resource} (hr : r ∉ held) :
      HoldStep held (.acquire r) () (r :: held)
  | letGo {held : List Resource} (r : Resource) : HoldStep held (.release r) () (held.erase r)
  | other {held : List Resource} {a : Action} (answer : a.Answer) (ha : a.LeavesResources) :
      HoldStep held a answer held

/-- A step of the protocol is held up by nothing, and leads to what is held after the action. -/
theorem HoldStep.heldAfter_eq {held held' : List Resource} {a : Action} {answer : a.Answer}
    (h : HoldStep held a answer held') {α : Type} (next : a.Answer → Program α) :
    (Program.ask a next).waits held = false ∧ held' = Program.heldAfter held a := by
  cases h with
  | take hr => exact ⟨decide_eq_false hr, rfl⟩
  | letGo r => exact ⟨rfl, rfl⟩
  | other answer ha =>
    cases a with
    | acquire r => exact ha.elim
    | release r => exact ha.elim
    | _ => exact ⟨rfl, rfl⟩

namespace Program

variable {α : Type}

/-- Whether a program, begun while some resources are held, takes none of them and gives back all that it
takes. -/
def Free (p : Program α) (held : List Resource) : Prop := p.Follows HoldStep held fun _ h => h = held

/-- Whether a program goes on from one turn to the next, in surroundings where nothing else has one. -/
def Advances (env : Surroundings) (x y : Program α × State × List Resource) : Prop :=
  x.1.value? = none ∧ y = x.1.advance env x.2.2 x.2.1

/-- A program that takes no resource it holds comes to what its run comes to, turn by turn. -/
theorem advances_run {p : Program α} {held held' : List Resource}
    (h : p.Follows HoldStep held fun _ h => h = held') (env : Surroundings) (s : State) :
    Relation.ReflTransGen (Advances env) (p, s, held)
      (.done (p.run env s).1, (p.run env s).2, held') := by
  induction p generalizing s held with
  | done x =>
    obtain rfl : held = held' := h
    exact .refl
  | ask a next ih =>
    obtain ⟨held₁, hstep, hnext⟩ := h (a.answer env s).1
    obtain ⟨hwaits, rfl⟩ := hstep.heldAfter_eq next
    refine .head ⟨rfl, ?_⟩ (ih _ hnext (a.answer env s).2)
    simp only [advance, hwaits, Bool.false_eq_true, if_false]

/-- A program without actions on resources is free. -/
theorem All.free {p : Program α} (h : p.All Action.LeavesResources) (held : List Resource) :
    p.Free held := .of_all h fun _ ha answer => .other answer ha

/-- A composed program is free if its parts are. -/
theorem Free.bind {β : Type} {p : Program α} {f : α → Program β} {held : List Resource}
    (hp : p.Free held) (hf : ∀ x, (f x).Free held) : (p >>= f).Free held := Follows.bind_eq hp hf

/-- Taking a resource that is not held leaves it held. -/
theorem follows_acquire {β : Type} {r : Resource} {held : List Resource} (hr : r ∉ held)
    {f : Unit → Program β} {Q : β → List Resource → Prop} (hf : (f ()).Follows HoldStep (r :: held) Q) :
    (perform (.acquire r) >>= f).Follows HoldStep held Q :=
  .bind_eq (.perform fun _ => ⟨r :: held, .take hr, rfl⟩) fun _ => hf

/-- Giving a resource back leaves what was held beside it. -/
theorem follows_release (r : Resource) (held : List Resource) (x : α) :
    (perform (.release r) >>= fun _ => pure x).Follows HoldStep (r :: held) fun _ h => h = held :=
  .bind_eq (.perform fun _ => ⟨_, .letGo r, List.erase_cons_head r held⟩) fun _ => .pure rfl

end Program

/-! ## The tasks of the agent -/

section Tasks

variable {α : Type} {p : Program α} {held : List Resource}

theorem free_of_reads (h : p.All Action.Reads) : p.Free held :=
  (h.mono fun _ => Action.Reads.of fun _ => trivial).free held

theorem free_of_records (h : p.All Action.Records) : p.Free held := by
  refine (h.mono fun a ha => ?_).free held
  cases a <;> first | exact trivial | exact ha.elim

theorem free_of_scans (h : p.All Action.Scans) : p.Free held :=
  (h.mono fun _ => Action.Scans.of (fun _ _ => trivial) (fun _ => trivial) fun _ => trivial).free held

theorem free_perform {a : Action} (h : a.LeavesResources) : (perform a).Free held :=
  Program.All.free (.perform h) held

/-! ### Refreshes -/

theorem free_setMatcher (hheld : .matcher ∉ held) (m : Matcher) : (setMatcher m).Free held :=
  Program.follows_acquire hheld (.bind_eq (free_perform trivial) fun _ => Program.follows_release .matcher held ())

theorem free_clearRules (hheld : .matcher ∉ held) : clearRules.Free held := by
  have hengine : clearEngine.All Action.LeavesResources :=
    all_clearEngine trivial (fun _ => trivial) fun _ => trivial
  refine .bind (free_setMatcher hheld _) fun _ => Program.All.free ?_ held
  refine .bind hengine fun engine => .bind (.perform trivial) fun blocks => ?_
  refine .bind (.perform trivial) fun redirects => .bind (.perform trivial) fun _ => ?_
  split <;> exact .pure _

theorem free_failSafe (hheld : .matcher ∉ held) (result : String) : (failSafe result).Free held := by
  have hresult : (noteResult result).Free held := free_of_records (records_noteResult result)
  refine .bind (free_clearRules hheld) fun r => ?_
  cases r with
  | ok u => exact hresult
  | error e => exact .bind (free_perform trivial) fun _ => hresult

theorem free_install (hheld : .matcher ∉ held) (policy : CompiledPolicy) : (install policy).Free held := by
  refine .bind (free_perform trivial) fun installed => ?_
  cases installed with
  | error e => exact .pure rfl
  | ok installed =>
    refine .bind (free_perform trivial) fun updated => ?_
    cases updated with
    | error e => exact .pure rfl
    | ok u =>
      refine .bind (free_perform trivial) fun _ => .bind (free_of_records (records_notes _)) fun _ => ?_
      refine .bind (free_setMatcher hheld _) fun _ => Program.All.free ?_ held
      refine .bind (.perform trivial) fun blocks => .bind (.perform trivial) fun redirects => ?_
      refine .bind (.perform trivial) fun lock => ?_
      cases blocks <;> cases redirects <;> cases lock <;>
        first | exact .pure _ | exact .bind (.perform trivial) fun _ => .pure _

theorem free_installDocument (hheld : .matcher ∉ held) (doc : PolicyDocument) :
    (installDocument doc).Free held := by
  obtain ⟨ns, heq⟩ := exists_installDocument_eq doc
  rw [heq]
  refine .bind (free_of_records (records_notes ns)) fun _ => ?_
  exact .bind (free_install hheld _) fun _ => .pure rfl

theorem free_refreshFrom (hheld : .matcher ∉ held) (url : String) : (refreshFrom url).Free held := by
  have hfailSafe (result : String) (e : Error) :
      (failSafe result >>= fun _ => pure (.error e) : Program (Except Error RefreshOutcome)).Free held :=
    .bind (free_failSafe hheld result) fun _ => .pure rfl
  refine .bind (free_of_records records_noteAttempt) fun _ => .bind (free_perform trivial) fun text => ?_
  cases text with
  | error e => exact .bind (free_perform trivial) fun _ => hfailSafe _ _
  | ok text =>
    refine .bind (free_of_records records_noteSuccess) fun _ => ?_
    split
    · exact .bind (free_perform trivial) fun _ => hfailSafe _ _
    · exact free_installDocument hheld _

/-- A refresh holds the right to refresh, and within it the right to replace the matcher, and nothing is
held when it ends. -/
theorem free_refresh (c : Config) : (refresh c).Free [] := by
  have hend (outcome : Except Error RefreshOutcome) := Program.follows_release .refresh [] outcome
  refine Program.follows_acquire List.not_mem_nil (.bind_eq (free_of_reads (reads_policyUrl c)) fun url => ?_)
  cases url with
  | error e => exact hend _
  | ok url =>
    cases url with
    | none =>
      have hrecords : refreshNothing.All Action.Records := by
        refine .bind records_noteAttempt fun _ => .bind (records_noteResult _) fun _ => ?_
        exact .bind (.perform trivial) fun _ => .pure _
      exact .bind_eq (free_of_records hrecords) hend
    | some url => exact .bind_eq (free_refreshFrom (by decide) url) hend

theorem free_refreshTask (c : Config) : (refreshTask c).Free [] := by
  refine .bind (free_refresh c) fun r => free_of_records ?_
  cases r with
  | error e => exact .perform trivial
  | ok outcome =>
    cases outcome with
    | noSource => exact .pure _
    | applied stats => exact .perform trivial

theorem free_startup (c : Config) : (startup c).Free [] := by
  refine .bind (free_of_reads (reads_policyUrl c)) fun url => ?_
  cases url with
  | error e => exact free_perform trivial
  | ok url =>
    cases url with
    | none => exact .pure rfl
    | some url => exact free_refreshTask c

/-! ### Navigations -/

theorem free_loadMatcher : loadMatcher.Free [] := by
  have hend (m : Except StoreError Matcher) := Program.follows_release .matcher [] m
  refine Program.follows_acquire List.not_mem_nil (.bind_eq (free_perform trivial) fun served => ?_)
  cases served with
  | some m => exact hend _
  | none =>
    refine .bind_eq (free_of_reads reads_storedRedirectRules) fun rules => ?_
    cases rules with
    | error e => exact hend _
    | ok rules =>
      refine .bind_eq (free_of_records (records_notes _)) fun _ => ?_
      exact .bind_eq (free_perform trivial) fun _ => hend _

theorem free_sharedMatcher : sharedMatcher.Free [] := by
  refine Program.follows_acquire List.not_mem_nil (.bind_eq (free_perform trivial) fun served => ?_)
  cases served with
  | some m => exact Program.follows_release .matcher [] _
  | none => exact .bind_eq (Program.follows_release .matcher [] ()) fun _ => free_loadMatcher

theorem free_navigate (c : Config) (n : Navigation) : (navigate c n).Free [] := by
  rw [navigate]
  split
  · exact .pure rfl
  · refine .bind free_sharedMatcher fun m => ?_
    cases m with
    | error e => exact .pure rfl
    | ok m => exact free_of_scans (scans_scan c _ _ _)

theorem free_navigateTask (c : Config) (n : Navigation) : (navigateTask c n).Free [] := by
  refine .bind (free_navigate c n) fun r => ?_
  cases r with
  | error e => exact free_perform trivial
  | ok target => exact .pure rfl

/-! ### Answers -/

theorem free_verifyCommand (password : String) : (verifyCommand password).Free [] := by
  refine .bind (free_of_reads (reads_verifyPassword password)) fun r => ?_
  cases r with
  | error e => exact .bind (free_perform trivial) fun _ => .pure rfl
  | ok ok => exact .pure rfl

/-- What a command comes to, a task or an answer, holds nothing when it ends. -/
theorem free_service (c : Config) (command : Command) :
    match command.service c with
    | .task p => p.Free []
    | .answer p => p.Free []
    | .stop => True := by
  cases command with
  | refresh => exact free_refreshTask c
  | navigate n => exact free_navigateTask c n
  | verifyPassword password => exact free_verifyCommand password
  | status => exact .bind (free_of_reads (reads_status c)) fun _ => .pure rfl
  | shutdown => trivial

end Tasks

end NavPolicy.Agent
