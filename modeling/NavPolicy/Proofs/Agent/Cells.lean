import NavPolicy.Proofs.Agent.Enforcement
import NavPolicy.Proofs.Time.Rfc3339

/-!
# Cells are independent

The cells of a store are changed and looked at through the programs of the agent.  What a cell holds is what
was left in it last, or else what stood there at first (`held`); this is shown for one change
(`Change.decode_run`) and then, by induction over the accesses, for all of them.  A look gives what the cells
that it is about hold and changes nothing, and a change touches no cell but its own, except that recording a
success also writes the result.
-/

namespace NavPolicy

/-! ## Values that are read as they were written -/

namespace Cell

/-- Whether a value of the cell has a text that says all of it.  Times do in the years of four digits, outside
of leap seconds. -/
def IsPlain : (c : Cell) → c.Content → Prop
  | lastAttempt, t => Time.Instant.IsPlain t
  | lastSuccess, t => Time.Instant.IsPlain t
  | _, _ => True

instance : Json.Persisted.Lawful (Content lastResult) :=
  inferInstanceAs (Json.Persisted.Lawful String)

/-- A time is read from the text under which it is kept. -/
theorem read_write_instant {t : Time.Instant} (h : t.IsPlain) : Json.read (Json.write t) = .ok t := by
  have hparse : Json.parse? (Json.write t) = some (.ofString t.write) :=
    Json.parse?_compact (Json.isPlain_ofString t.write)
  simp only [Json.read, hparse, Json.ofJson, Json.Value.ofString, Time.Instant.read?_write h]

/-- The text of a plain value is read as the value. -/
theorem decode_encode_of_isPlain {c : Cell} {x : c.Content} (h : c.IsPlain x) :
    c.decode (some (c.encode x)) = .ok (some x) := by
  refine decode_of_read ?_
  cases c with
  | policyUrl => exact Json.read_write x
  | blockRules => exact Json.read_write x
  | redirectRules => exact Json.read_write x
  | accessLock => exact Json.read_write x
  | lastAttempt => exact read_write_instant h
  | lastResult => exact Json.read_write x
  | lastSuccess => exact read_write_instant h

end Cell

namespace Agent

open Program (perform)

/-! ## Changes and looks -/

/-- What changes the values that are kept. -/
inductive Change where
  /-- A value is written into its cell. -/
  | write (c : Cell) (x : c.Content)
  /-- The value of a cell is removed. -/
  | remove (c : Cell)
  /-- A success is recorded, and with it that the last result is one. -/
  | recordSuccess (t : Time.Instant)

namespace Change

/-- The program that makes a change. -/
def program : Change → Program (Except StoreError Unit)
  | write c x => writeCell c x
  | remove c => perform (.erase c.key)
  | recordSuccess t => Agent.recordSuccess t

/-- The cell that a change is about. -/
def cell : Change → Cell
  | write c _ => c
  | remove c => c
  | recordSuccess _ => .lastSuccess

/-- What a change leaves in a cell, if it is one that it touches: a value, or nothing. -/
def leaves : Change → (c : Cell) → Option (Option c.Content)
  | write d x, c => if h : d = c then some (some (h ▸ x)) else none
  | remove d, c => if d = c then some none else none
  | recordSuccess _, .lastResult => some (some "Success")
  | recordSuccess t, .lastSuccess => some (some t)
  | recordSuccess _, _ => none

/-- Whether the values that a change writes are plain. -/
def IsPlain : Change → Prop
  | write c x => c.IsPlain x
  | remove _ => True
  | recordSuccess t => t.IsPlain

end Change

/-- The typed reads of what is kept. -/
inductive Look where
  | policyUrl
  | blockRules
  | redirectRules
  | accessLock
  | fetchRecord
  deriving DecidableEq, Repr

namespace Look

/-- The type of what is read. -/
abbrev Answer : Look → Type
  | policyUrl => Option String
  | blockRules => List BlockRule
  | redirectRules => List RedirectRule
  | accessLock => AccessLock
  | fetchRecord => FetchRecord

/-- The program that reads. -/
def program : (l : Look) → Program (Except StoreError l.Answer)
  | policyUrl => storedUrl
  | blockRules => storedBlockRules
  | redirectRules => storedRedirectRules
  | accessLock => storedLock
  | fetchRecord => Agent.fetchRecord

/-- What is read where the cells hold these values.  An empty policy URL is none, and the record of the
fetches is read attempt first, then result, then success, up to the first of them that is no value. -/
def value (holds : (c : Cell) → Except StoreError (Option c.Content)) :
    (l : Look) → Except StoreError l.Answer
  | policyUrl => (holds .policyUrl).map fun url => url.filter (· ≠ "")
  | blockRules => (holds .blockRules).map fun rules => rules.getD []
  | redirectRules => (holds .redirectRules).map fun rules => rules.getD []
  | accessLock => (holds .accessLock).map fun lock => lock.getD .unlocked
  | fetchRecord => do
    let attempt ← holds .lastAttempt
    let result ← holds .lastResult
    let success ← holds .lastSuccess
    return ⟨attempt, result, success⟩

end Look

/-- A change or a look. -/
inductive Access where
  | change (ch : Change)
  | look (l : Look)

/-- The changes among accesses. -/
def changesOf (accesses : List Access) : List Change :=
  accesses.filterMap fun
    | .change ch => some ch
    | .look _ => none

/-- The state after accesses, one after the other. -/
def State.accessed (env : Surroundings) (s : State) : List Access → State
  | [] => s
  | .change ch :: rest => State.accessed env (ch.program.run env s).2 rest
  | .look l :: rest => State.accessed env (l.program.run env s).2 rest

/-- What the last change that touches a cell leaves in it, if there is one. -/
def lastLeft : List Change → (c : Cell) → Option (Option c.Content)
  | [], _ => none
  | ch :: later, c => (lastLeft later c).or (ch.leaves c)

/-- What a cell of a store holds after changes: what was left in it last, or else the value of the text that
stands in the store under its key. -/
def held (store : Store) (changes : List Change) (c : Cell) : Except StoreError (Option c.Content) :=
  match lastLeft changes c with
  | some left => .ok left
  | none =>
    match store.get? c.key with
    | none => .ok none
    | some text =>
      match (Json.read text : Except Json.Error c.Content) with
      | .ok x => .ok (some x)
      | .error e => .error (.invalid c.key e)

/-! ## One change -/

variable {env : Surroundings} {s : State}

/-- A cell that can be read gives what its text gives, and nothing changes. -/
theorem run_readCell {c : Cell} (h : env.readFault c.key = none) :
    (readCell c).run env s = (c.decode (s.store.get? c.key), s) := by
  refine Prod.ext ?_ ((reads_readCell c).run_of_reads env s)
  rw [readCell, Program.run_bind, Program.run_perform, Action.answer, h]
  rfl

/-- The store after a change. -/
def Change.applied : Change → Store → Store
  | write c x, store => store.set c.key (c.encode x)
  | remove c, store => store.erase c.key
  | recordSuccess t, store =>
    (store.set Cell.lastResult.key (Cell.lastResult.encode "Success")).set Cell.lastSuccess.key
      (Cell.lastSuccess.encode t)

/-- A change is made where no write fails. -/
theorem Change.run_program (h : ∀ c : Cell, env.writeFault c.key = none) (ch : Change) :
    (ch.program.run env s).1 = .ok () ∧ (ch.program.run env s).2.store = ch.applied s.store := by
  have hwrite (c : Cell) (x : c.Content) (s : State) : (writeCell c x).run env s =
      (.ok (), { s with store := s.store.set c.key (c.encode x), writes := s.writes + 1 }) := by
    rw [writeCell, Program.run_perform, Action.answer, h]
    rfl
  cases ch with
  | write c x =>
    rw [program, hwrite]
    exact ⟨rfl, rfl⟩
  | remove c =>
    rw [program, Program.run_perform, Action.answer, h]
    exact ⟨rfl, rfl⟩
  | recordSuccess t =>
    rw [program, Agent.recordSuccess, Program.run_bind, hwrite]
    dsimp only
    rw [hwrite]
    exact ⟨rfl, rfl⟩

/-- A change leaves in the cells that it touches what it is to leave there, and the other cells alone. -/
theorem Change.get?_applied (ch : Change) (store : Store) (c : Cell) :
    (ch.applied store).get? c.key =
      match ch.leaves c with
      | some left => left.map c.encode
      | none => store.get? c.key := by
  cases ch with
  | write d x =>
    rw [applied, Store.get?_set, leaves]
    by_cases h : d = c
    · subst h
      rw [if_pos rfl, dif_pos rfl]
      rfl
    · rw [if_neg fun hkey => h (Cell.key_injective hkey).symm, dif_neg h]
  | remove d =>
    rw [applied, Store.get?_erase, leaves]
    by_cases h : d = c
    · rw [if_pos (congrArg Cell.key h.symm), if_pos h]
      rfl
    · rw [if_neg fun hkey => h (Cell.key_injective hkey).symm, if_neg h]
  | recordSuccess t =>
    rw [applied, Store.get?_set, Store.get?_set]
    cases c <;> rfl

/-- A change alters no text but that of its own cell and, where it records a success, that of the result. -/
theorem Change.get?_applied_of_ne {ch : Change} {key : String} (h : key ≠ ch.cell.key)
    (hresult : ∀ t, ch = .recordSuccess t → key ≠ Cell.lastResult.key) (store : Store) :
    (ch.applied store).get? key = store.get? key := by
  cases ch with
  | write c x => exact (Store.get?_set ..).trans (if_neg h)
  | remove c => exact (Store.get?_erase ..).trans (if_neg h)
  | recordSuccess t =>
    calc (applied (.recordSuccess t) store).get? key
        = (store.set Cell.lastResult.key (Cell.lastResult.encode "Success")).get? key :=
          (Store.get?_set ..).trans (if_neg h)
      _ = store.get? key := (Store.get?_set ..).trans (if_neg (hresult t rfl))

/-- A plain change leaves plain values. -/
theorem Change.IsPlain.of_leaves {ch : Change} (h : ch.IsPlain) {c : Cell} {x : c.Content}
    (hx : ch.leaves c = some (some x)) : c.IsPlain x := by
  cases ch with
  | write d y =>
    rw [leaves] at hx
    by_cases hd : d = c
    · subst hd
      rw [dif_pos rfl] at hx
      obtain rfl : y = x := Option.some.inj (Option.some.inj hx)
      exact h
    · rw [dif_neg hd] at hx
      exact absurd hx (Option.some_ne_none _).symm
  | remove d =>
    rw [leaves] at hx
    split at hx
    · exact absurd (Option.some.inj hx) (Option.some_ne_none x).symm
    · exact absurd hx (Option.some_ne_none _).symm
  | recordSuccess t =>
    cases c with
    | lastSuccess =>
      obtain rfl : t = x := Option.some.inj (Option.some.inj hx)
      exact h
    | lastAttempt => exact absurd hx (Option.some_ne_none _).symm
    | _ => trivial

/-- What a cell holds, in terms of the text under its key. -/
theorem held_eq (store : Store) (changes : List Change) (c : Cell) :
    held store changes c =
      match lastLeft changes c with
      | some left => .ok left
      | none => c.decode (store.get? c.key) := by
  rw [held]
  cases lastLeft changes c with
  | some left => rfl
  | none => cases store.get? c.key <;> rfl

/-- A cell that is changed holds what the change leaves in it, and goes on from there. -/
theorem held_cons {ch : Change} (h : ch.IsPlain) (store : Store) (later : List Change) (c : Cell) :
    held store (ch :: later) c = held (ch.applied store) later c := by
  rw [held_eq, held_eq, lastLeft]
  cases lastLeft later c with
  | some left => rfl
  | none =>
    rw [Option.none_or, ch.get?_applied]
    dsimp only
    cases hleaves : ch.leaves c with
    | none => rfl
    | some left =>
      cases left with
      | none => rfl
      | some x => exact (Cell.decode_encode_of_isPlain (h.of_leaves hleaves)).symm

/-! ## All accesses -/

/-- A look gives what the cells hold that it is about, and nothing changes. -/
theorem Look.run_program (h : ∀ c : Cell, env.readFault c.key = none) (l : Look) :
    l.program.run env s = (l.value fun c => c.decode (s.store.get? c.key), s) := by
  have hread (c : Cell) := run_readCell (s := s) (h c)
  cases l with
  | policyUrl => rw [program, storedUrl, Program.run_bind, hread]; rfl
  | blockRules => rw [program, storedBlockRules, Program.run_bind, hread]; rfl
  | redirectRules => rw [program, storedRedirectRules, Program.run_bind, hread]; rfl
  | accessLock => rw [program, storedLock, Program.run_bind, hread]; rfl
  | fetchRecord =>
    rw [program, Agent.fetchRecord, Program.run_bind, hread, value]
    cases Cell.lastAttempt.decode (s.store.get? Cell.lastAttempt.key) with
    | error e => rfl
    | ok attempt =>
      dsimp only
      rw [Program.run_bind, hread]
      cases Cell.lastResult.decode (s.store.get? Cell.lastResult.key) with
      | error e => rfl
      | ok result =>
        dsimp only
        rw [Program.run_bind, hread]
        cases Cell.lastSuccess.decode (s.store.get? Cell.lastSuccess.key) <;> rfl

/-- Every cell holds what was left in it last, or else what stood there at first. -/
theorem decode_accessed (hread : ∀ c : Cell, env.readFault c.key = none)
    (hwrite : ∀ c : Cell, env.writeFault c.key = none) (accesses : List Access)
    (hplain : ∀ ch ∈ changesOf accesses, ch.IsPlain) (s : State) (c : Cell) :
    c.decode ((s.accessed env accesses).store.get? c.key) = held s.store (changesOf accesses) c := by
  induction accesses generalizing s with
  | nil => exact (held_eq s.store [] c).symm
  | cons a rest ih =>
    cases a with
    | change ch =>
      have hch := List.forall_mem_cons.1 hplain
      rw [State.accessed, ih hch.2, (ch.run_program hwrite).2]
      exact (held_cons hch.1 s.store (changesOf rest) c).symm
    | look l =>
      rw [State.accessed, l.run_program hread]
      exact ih hplain s

/-- The typed state consists of independent cells: after any accesses each look gives what was left in its
cells last or else what stood there at first, or names the cell whose text is no value, and changes nothing;
and each change is made and alters no text but that of its own cell, except that recording a success also
writes the result. -/
theorem cells_independent (hread : ∀ c : Cell, env.readFault c.key = none)
    (hwrite : ∀ c : Cell, env.writeFault c.key = none) (s : State) (accesses : List Access)
    (hplain : ∀ ch ∈ changesOf accesses, ch.IsPlain) :
    let t := s.accessed env accesses
    (∀ l : Look, l.program.run env t = (l.value (held s.store (changesOf accesses)), t)) ∧
      ∀ ch : Change, (ch.program.run env t).1 = .ok () ∧
        ∀ key ≠ ch.cell.key, (∀ time, ch = .recordSuccess time → key ≠ Cell.lastResult.key) →
          (ch.program.run env t).2.store.get? key = t.store.get? key := by
  intro t
  refine ⟨fun l => ?_, fun ch => ?_⟩
  · rw [l.run_program hread]
    congr 2
    funext c
    exact decode_accessed hread hwrite accesses hplain s c
  · obtain ⟨hok, hstore⟩ := ch.run_program (s := t) hwrite
    refine ⟨hok, fun key hkey hresult => ?_⟩
    rw [hstore, Change.get?_applied_of_ne hkey hresult]

/-- Redirect rules that are no value stand beside cells that are written, overwritten and removed. -/
theorem cells_independent_beside_garbage :
    let env := Surroundings.offline "no route" ⟨0, 0⟩
    let s := State.initial
      (.ofList [("redirectRules", "not json"), ("accessLock", "null"), ("lastFetchAttempt", "17")]) .empty
    let time : Time.Instant := ⟨1709251199, 500000000⟩
    let accesses : List Access :=
      [.change (.write .policyUrl "https://é.example/\"\\"), .look .redirectRules,
        .change (.write .blockRules [⟨4294967295, "a*"⟩]), .change (.remove .accessLock),
        .change (.write .lastResult "late"), .change (.recordSuccess time), .look .fetchRecord,
        .change (.write .lastAttempt ⟨-62135596800, 1⟩)]
    let t := s.accessed env accesses
    (∀ c : Cell, env.readFault c.key = none) ∧ (∀ c : Cell, env.writeFault c.key = none) ∧
      (∀ ch ∈ changesOf accesses, ch.IsPlain) ∧
      storedUrl.run env t = (.ok (some "https://é.example/\"\\"), t) ∧
      storedBlockRules.run env t = (.ok [⟨4294967295, "a*"⟩], t) ∧
      storedRedirectRules.run env t = (.error (.invalid "redirectRules" .malformed), t) ∧
      storedLock.run env t = (.ok .unlocked, t) ∧
      fetchRecord.run env t =
        (.ok ⟨some ⟨-62135596800, 1⟩, some "Success", some time⟩, t) := by
  intro env s time accesses t
  have hread : ∀ c : Cell, env.readFault c.key = none := fun _ => rfl
  have hwrite : ∀ c : Cell, env.writeFault c.key = none := fun _ => rfl
  have hplain : ∀ ch ∈ changesOf accesses, ch.IsPlain := by
    have htimes : time.IsPlain ∧ Time.Instant.IsPlain ⟨-62135596800, 1⟩ := by
      simp only [Time.Instant.IsPlain]
      decide +kernel
    simp only [accesses, changesOf, List.filterMap_cons, List.filterMap_nil, List.forall_mem_cons]
    exact ⟨trivial, trivial, trivial, trivial, htimes.1, htimes.2, by simp⟩
  have hlook := (cells_independent hread hwrite s accesses hplain).1
  have hredirect : (held s.store (changesOf accesses) .redirectRules) =
      .error (.invalid "redirectRules" .malformed) := by decide +kernel
  refine ⟨hread, hwrite, hplain, hlook .policyUrl, hlook .blockRules, ?_, hlook .accessLock,
    hlook .fetchRecord⟩
  refine (hlook .redirectRules).trans ?_
  rw [Look.value, hredirect]
  rfl

end Agent

end NavPolicy
