import Mathlib.Data.List.TakeWhile
import NavPolicy.Proofs.Store.Cell
import NavPolicy.Proofs.Text.Blank
import NavPolicy.Store.File

/-!
# A store in step with its file

The text of the file that keeps a store is read as the store (`ofFileText_fileText`), so a store that has
been written is found again.  A store kept in a file takes requests one after the other
(`FileStore.answer`).  Each either leaves the store and the file as they are or writes the file anew, with
the text of the store as it is then (`answer_cases`).  From this the store is at all times what its file
keeps (`InStep`), and what a store in memory holds that received the changes that were made
(`values_after`).
-/

namespace NavPolicy

open Json (isPlain_toJson isPlain_record)

/-! ## The text of a store -/

namespace Store

/-- Two stores with the same texts under all keys are the same. -/
theorem ext_of_get? {s t : Store} (h : ∀ key, s.get? key = t.get? key) : s = t := by
  have hfind : ∀ (u : Store) (key : String), Table.find? Prod.fst key u.entries =
      (u.get? key).map fun text => (key, text) := by
    intro u key
    rw [get?, Option.map_map]
    cases hx : Table.find? Prod.fst key u.entries with
    | none => rfl
    | some x =>
      have hkey : x.1 = key := by simpa using List.find?_some hx
      rw [Option.map_some, ← hkey]
      rfl
  have hentries : s.entries = t.entries :=
    s.ascending.ext t.ascending fun key => by rw [hfind, hfind, h]
  cases s
  cases t
  cases hentries
  rfl

/-- Erasing a key without a text changes nothing. -/
theorem erase_of_get?_eq_none {s : Store} {key : String} (h : s.get? key = none) :
    s.erase key = s := by
  refine ext_of_get? fun k => ?_
  rw [get?_erase]
  by_cases hk : k = key
  · rw [if_pos hk, hk, h]
  · rw [if_neg hk]

/-- The entries of a store are read from its fields. -/
theorem ofFields_entries (entries : List (String × String)) :
    ofFields ((entries.map fun (key, text) => (key, Json.toJson text)).map
      fun (name, v) => (some name, v)) = .ok entries := by
  induction entries with
  | nil => rfl
  | cons entry entries ih =>
    rw [List.map_cons, List.map_cons]
    show ofFields ((some entry.1, .string (some entry.2)) :: _) = _
    rw [ofFields, ih]

instance : Json.Persisted.Lawful Store where
  isPlain_toJson s := by
    refine isPlain_record fun f hf => ?_
    obtain ⟨entry, -, rfl⟩ := List.mem_map.1 hf
    exact isPlain_toJson entry.2
  ofJson_toJson s := by
    have hself : ofList s.entries = s := by
      have hentries : (ofList s.entries).entries = s.entries := Table.ofList_eq_self s.ascending
      exact ext_of_get? fun key => by rw [get?, get?, hentries]
    show (ofFields _).map ofList = _
    rw [ofFields_entries]
    exact congrArg Except.ok hself

/-- A blank text keeps the store without texts. -/
theorem ofFileText_of_blank {text : String} (h : ∀ c ∈ text.toList, Text.isBlank c = true) :
    ofFileText text = .ok .empty := by
  rw [ofFileText, Text.trim_eq_nil_iff.2 h]
  rfl

/-- The text of a store starts with a brace. -/
theorem exists_fileText (s : Store) : ∃ rest, s.fileText.toList = '\x7b' :: rest := by
  obtain ⟨rest, hrest⟩ : ∃ rest, (Json.toJson s).indentedChars 0 = '\x7b' :: rest := by
    show ∃ rest, (Json.Value.record _).indentedChars 0 = _
    rw [Json.Value.record, Json.Value.indentedChars]
    generalize Json.fieldLines (0 + 1) _ = members
    cases members with
    | nil => exact ⟨_, rfl⟩
    | cons member members => exact ⟨_, rfl⟩
  exact ⟨rest, by rw [fileText, Json.Value.indented, String.toList_ofList, hrest]⟩

/-- The text of a store is read as the store. -/
theorem ofFileText_fileText (s : Store) : ofFileText s.fileText = .ok s := by
  obtain ⟨rest, hrest⟩ := s.exists_fileText
  have hblank : (Text.trim s.fileText.toList).isEmpty = false := by
    rw [Bool.eq_false_iff, ne_eq, List.isEmpty_iff, Text.trim_eq_nil_iff, hrest]
    exact fun h => absurd (h '\x7b' List.mem_cons_self) (by decide)
  rw [ofFileText, hblank]
  exact Json.read_indented s

end Store

/-! ## Requests -/

namespace FileStore

/-- What a store kept in a file is asked; the fault is what stops the writing, if anything does. -/
inductive Request where
  | get (key : String)
  | set (key text : String) (fault : Option IoError)
  | erase (key : String) (fault : Option IoError)
  /-- To be opened anew from its file. -/
  | reopen
  deriving DecidableEq

/-- What would stop the writing that a request asks for. -/
def Request.fault : Request → Option IoError
  | .set _ _ fault | .erase _ fault => fault
  | .get _ | .reopen => none

/-- What a store answers. -/
inductive Answer where
  | found (text : Option String)
  | outcome (result : Except StoreError Unit)
  deriving DecidableEq

/-- The answer that a request was done. -/
abbrev Answer.done : Answer := .outcome (.ok ())

/-- The answer that a request was refused. -/
abbrev Answer.refused (e : StoreError) : Answer := .outcome (.error e)

/-- The file as it is found. -/
def found (s : FileStore) : FoundFile :=
  match s.file with
  | some text => .ok text
  | none => .error .notFound

/-- Goes on with the store after a change; a change that was refused leaves the one before it. -/
def afterChange (s : FileStore) : Except StoreError FileStore → Answer × FileStore
  | .ok next => (.done, next)
  | .error e => (.refused e, s)

/-- Answers a request; `path` names the file in errors. -/
def answer (path : String) (s : FileStore) : Request → Answer × FileStore
  | .get key => (.found (s.values.get? key), s)
  | .set key text fault => s.afterChange (s.set key text fault)
  | .erase key fault => s.afterChange (s.erase key fault)
  | .reopen => s.afterChange ((Store.openFile path s.found).map fun values => { s with values })

/-- The store after some requests. -/
def after (path : String) (s : FileStore) (rs : List Request) : FileStore :=
  rs.foldl (fun s r => (s.answer path r).2) s

/-- Requests with the answers to them. -/
def log (path : String) : FileStore → List Request → List (Request × Answer)
  | _, [] => []
  | s, r :: rs => (r, (s.answer path r).1) :: log path (s.answer path r).2 rs

/-- What a store in memory receives of a request that was answered: a change that was made. -/
def receive (memory : Store) : Request × Answer → Store
  | (.set key text _, .outcome (.ok ())) => memory.set key text
  | (.erase key _, .outcome (.ok ())) => memory.erase key
  | _ => memory

/-- Whether the store is what its file keeps. -/
def InStep (path : String) (s : FileStore) : Prop := Store.openFile path s.found = .ok s.values

/-! ## One request -/

section OneRequest

variable {path : String} {s : FileStore}

/-- A store that has just been written is what its file keeps. -/
theorem inStep_written (path : String) (values : Store) :
    InStep path ⟨values, some values.fileText⟩ := by
  show (Store.ofFileText values.fileText).mapError _ = _
  rw [Store.ofFileText_fileText]
  rfl

/-- A store in step with its file stays as it is when it is opened anew. -/
theorem answer_reopen (h : InStep path s) : s.answer path .reopen = (.done, s) := by
  rw [answer, show Store.openFile path s.found = .ok s.values from h]
  rfl

/-- Erasing a key without a text needs no writing, so nothing can stop it. -/
theorem answer_erase_of_get?_eq_none {key : String} (h : s.values.get? key = none)
    (fault : Option IoError) : s.answer path (.erase key fault) = (.done, s) := by
  rw [answer, erase, h]
  rfl

/-- A request leaves everything as it is, or is done by writing the file anew. -/
theorem answer_cases (h : InStep path s) (r : Request) :
    ((s.answer path r).2 = s ∧ receive s.values (r, (s.answer path r).1) = s.values ∧
      ∀ e, (s.answer path r).1 = .refused e → ∃ fault, r.fault = some fault ∧ e = .io fault) ∨
    ∃ values, s.answer path r = (.done, ⟨values, some values.fileText⟩) ∧
      receive s.values (r, .done) = values := by
  cases r with
  | get key => exact Or.inl ⟨rfl, rfl, fun e he => nomatch he⟩
  | set key text fault =>
    cases fault with
    | none => exact Or.inr ⟨_, rfl, rfl⟩
    | some fault =>
      refine Or.inl ⟨rfl, rfl, fun e he => ⟨fault, rfl, ?_⟩⟩
      cases he
      rfl
  | erase key fault =>
    cases hkey : s.values.get? key with
    | none =>
      rw [answer_erase_of_get?_eq_none hkey]
      exact Or.inl ⟨rfl, Store.erase_of_get?_eq_none hkey, fun e he => nomatch he⟩
    | some text =>
      rw [answer, erase, hkey]
      cases fault with
      | none => exact Or.inr ⟨_, rfl, rfl⟩
      | some fault =>
        refine Or.inl ⟨rfl, rfl, fun e he => ⟨fault, rfl, ?_⟩⟩
        cases he
        rfl
  | reopen =>
    rw [answer_reopen h]
    exact Or.inl ⟨rfl, rfl, fun e he => nomatch he⟩

/-- The store stays what its file keeps. -/
theorem InStep.answer (h : InStep path s) (r : Request) : InStep path (s.answer path r).2 := by
  rcases answer_cases h r with ⟨hleft, -⟩ | ⟨values, hwritten, -⟩
  · rw [hleft]
    exact h
  · rw [hwritten]
    exact inStep_written path values

/-- The store goes on as a store in memory does that receives what is done. -/
theorem values_answer (h : InStep path s) (r : Request) :
    (s.answer path r).2.values = receive s.values (r, (s.answer path r).1) := by
  rcases answer_cases h r with ⟨hleft, hmemory, -⟩ | ⟨values, hwritten, hmemory⟩
  · rw [hleft, hmemory]
  · rw [hwritten]
    exact hmemory.symm

end OneRequest

/-! ## Many requests -/

section Requests

variable {path : String} {s : FileStore}

/-- The store is what its file keeps after any requests. -/
theorem InStep.after (h : InStep path s) (rs : List Request) : InStep path (s.after path rs) := by
  induction rs generalizing s with
  | nil => exact h
  | cons r rs ih => exact ih (h.answer r)

/-- After any requests the store is the one in memory that received what was done. -/
theorem values_after (h : InStep path s) (rs : List Request) :
    (s.after path rs).values = (s.log path rs).foldl receive s.values := by
  induction rs generalizing s with
  | nil => rfl
  | cons r rs ih =>
    have hrest : ((s.answer path r).2.after path rs).values = _ := ih (h.answer r)
    rw [values_answer h] at hrest
    exact hrest

/-- After any requests everything is as before, or the file has the text of the store. -/
theorem file_after (h : InStep path s) (rs : List Request) :
    s.after path rs = s ∨
      (s.after path rs).file = some (s.after path rs).values.fileText := by
  induction rs using List.reverseRecOn with
  | nil => exact Or.inl rfl
  | append_singleton rs r ih =>
    have hlast : s.after path (rs ++ [r]) = ((s.after path rs).answer path r).2 := by
      rw [FileStore.after, List.foldl_append]
      rfl
    rw [hlast]
    rcases answer_cases (h.after rs) r with ⟨hleft, -⟩ | ⟨values, hwritten, -⟩
    · rw [hleft]
      exact ih
    · rw [hwritten]
      exact Or.inr rfl

/-- Opening a store in step with its file anew changes no later answer. -/
theorem log_reopen (h : InStep path s) (n : Nat) (later : List Request) :
    s.log path (List.replicate n .reopen ++ later) =
      List.replicate n (.reopen, .done) ++ s.log path later := by
  induction n with
  | zero => rfl
  | succ n ih =>
    rw [List.replicate_succ, List.cons_append, log, answer_reopen h, ih]
    rfl

/-- A store kept in a file behaves as the one in memory that receives the changes that are made, whatever
its file kept at first and whichever writings fail. -/
theorem refines_memory (path : String) (start : FileStore) (hstart : InStep path start)
    (rs : List Request) :
    let s := start.after path rs
    let memory := (start.log path rs).foldl receive start.values
    -- it gives the texts that the store in memory has
    (∀ key, s.answer path (.get key) = (.found (memory.get? key), s)) ∧
    -- only a failing write stops a change, and then nothing changes
    (∀ r e, (s.answer path r).1 = .refused e →
      (s.answer path r).2 = s ∧ ∃ fault, r.fault = some fault ∧ e = .io fault) ∧
    -- the file keeps the store, so it may be opened anew at any time and any number of times
    Store.openFile path s.found = .ok s.values ∧
    (s.file = none → s.values = .empty) ∧
    (∀ text, s.file = some text → (∀ c ∈ text.toList, Text.isBlank c = true) →
      s.values = .empty) ∧
    (∀ n later, s.log path (List.replicate n .reopen ++ later) =
      List.replicate n (.reopen, .done) ++ s.log path later) ∧
    -- a written file has the text of the store, and stores with the same texts have the same file
    (s = start ∨ s.file = some s.values.fileText) ∧
    (∀ values : Store, (∀ key, values.get? key = s.values.get? key) →
      values.fileText = s.values.fileText) ∧
    -- there is nothing to write, and so nothing can fail, for a key without a text
    (∀ key fault, memory.get? key = none → s.answer path (.erase key fault) = (.done, s)) := by
  intro s memory
  have hs : InStep path s := hstart.after rs
  have hvalues : s.values = memory := values_after hstart rs
  have hopen : Store.openFile path s.found = .ok s.values := hs
  refine ⟨fun key => ?_, fun r e he => ?_, hopen, fun hfile => ?_, fun text hfile hblank => ?_,
    log_reopen hs, file_after hstart rs, fun values hlookups => ?_, fun key fault hkey => ?_⟩
  · rw [answer, hvalues]
  · rcases answer_cases hs r with ⟨hleft, -, hfault⟩ | ⟨values, hwritten, -⟩
    · exact ⟨hleft, hfault e he⟩
    · rw [hwritten] at he
      exact nomatch he
  · rw [found, hfile] at hopen
    exact (Except.ok.inj hopen).symm
  · rw [found, hfile, Store.openFile, Store.ofFileText_of_blank hblank] at hopen
    exact (Except.ok.inj hopen).symm
  · rw [Store.ext_of_get? hlookups]
  · exact answer_erase_of_get?_eq_none (hvalues ▸ hkey) fault

/-- From a blank file, with a text that needs escapes, a key that is erased again, a write that fails and the
file opened twice. -/
theorem refines_memory_escapes :
    let start : FileStore := ⟨.empty, some " \n"⟩
    let rs : List Request :=
      [.set "gone" "0" none, .set "naïve" "\"\\\n\x01" none, .erase "gone" none,
        .set "lost" "1" (some .busy), .erase "naïve" (some .busy), .reopen, .reopen]
    let s := start.after "state.json" rs
    InStep "state.json" start ∧
      s.answer "state.json" (.get "naïve") = (.found (some "\"\\\n\x01"), s) ∧
      s.answer "state.json" (.get "gone") = (.found none, s) ∧
      Store.openFile "state.json" s.found = .ok s.values := by
  intro start rs s
  have hstart : InStep "state.json" start := by
    show Store.openFile _ _ = _
    decide +kernel
  obtain ⟨hget, -, hopen, -⟩ := refines_memory "state.json" start hstart rs
  have hmemory : (start.log "state.json" rs).foldl receive start.values =
      Store.empty.set "naïve" "\"\\\n\x01" := by
    decide +kernel
  rw [hmemory] at hget
  exact ⟨hstart, hget "naïve", hget "gone", hopen⟩

end Requests

end FileStore

end NavPolicy
