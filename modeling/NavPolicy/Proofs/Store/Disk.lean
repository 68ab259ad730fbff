import NavPolicy.Proofs.Files.Tree
import NavPolicy.Proofs.Store.File

/-!
# Stores whose file stands in a tree

What stops the writing of a store is what stops `FileTree.save` at the path of its file.  Whichever requests a store
gets, and whatever stops them, the file that it keeps is the one that is found in the tree
(`FileStore.StandsIn.after`), so that the store is found again when it is opened from there
(`FileStore.openFile_meet`).
-/

namespace NavPolicy.FileStore

variable {path : String} {s : FileStore} {t : FileTree}

/-! ## Requests that meet a tree -/

/-- The values that a request asks to be written, if it does. -/
def Request.values? (s : FileStore) : Request → Option Store
  | .set key text _ => some (s.values.set key text)
  | .erase key _ => (s.values.get? key).map fun _ => s.values.erase key
  | .get _ | .reopen => none

/-- A request whose writing is stopped by something else, if by anything. -/
def Request.stoppedBy (fault : Option IoError) : Request → Request
  | .set key text _ => .set key text fault
  | .erase key _ => .erase key fault
  | .get key => .get key
  | .reopen => .reopen

/-- A request as it meets the tree with the file: with what stops its writing there, and the tree that is left. -/
def Request.meet (path : String) (s : FileStore) (t : FileTree) (r : Request) : Request × FileTree :=
  match r.values? s with
  | none => (r, t)
  | some values =>
    let (t, fault) := t.save path values.fileText
    (r.stoppedBy fault, t)

/-- Requests as they meet the tree one after the other, and the tree that is left. -/
def meet (path : String) : FileStore → FileTree → List Request → List Request × FileTree
  | _, t, [] => ([], t)
  | s, t, r :: rs =>
    let (r, t) := r.meet path s t
    let (rs, t) := meet path (s.answer path r).2 t rs
    (r :: rs, t)

/-- Whether the file that a store keeps is found in a tree. -/
structure StandsIn (path : String) (s : FileStore) (t : FileTree) : Prop where
  isClosed : t.IsClosed
  read : ∀ text, s.file = some text → t.read path = .ok text

/-! ## One request -/

/-- A request that does not ask to write leaves the file. -/
theorem file_answer (path : String) {r : Request} (h : r.values? s = none) :
    (s.answer path r).2.file = s.file := by
  cases r with
  | get key => rfl
  | set key text fault => exact nomatch h
  | erase key fault =>
    rw [answer_erase_of_get?_eq_none (Option.map_eq_none_iff.1 h)]
  | reopen =>
    rw [answer]
    cases Store.openFile path s.found <;> rfl

/-- A request that asks to write takes over the values that it writes, unless something stops it. -/
theorem answer_stoppedBy {r : Request} {values : Store} (h : r.values? s = some values)
    (fault : Option IoError) : s.answer path (r.stoppedBy fault) = s.afterChange (s.save values fault) := by
  cases r with
  | get key => cases h
  | set key text _ =>
    cases h
    rfl
  | erase key _ =>
    obtain ⟨text, hkey, rfl⟩ := Option.map_eq_some_iff.1 h
    rw [Request.stoppedBy, answer, erase, hkey]
  | reopen => cases h

/-- The file is found in the tree after it has been written, and after something has stopped that. -/
theorem StandsIn.save (h : s.StandsIn path t) {values : Store} {t' : FileTree} {fault : Option IoError}
    (hsave : t.save path values.fileText = (t', fault)) :
    (s.afterChange (s.save values fault)).2.StandsIn path t' := by
  obtain ⟨hclosed, hread⟩ := FileTree.read_of_save h.isClosed hsave
  refine ⟨hclosed, fun text hfile => ?_⟩
  cases fault with
  | none =>
    rw [← Option.some.inj hfile]
    exact hread
  | some e => exact hread text (h.read text hfile)

/-- The file is found in the tree after a request. -/
theorem StandsIn.answer (h : s.StandsIn path t) (r : Request) :
    (s.answer path (r.meet path s t).1).2.StandsIn path (r.meet path s t).2 := by
  rw [Request.meet]
  split
  · next hvalues => exact ⟨h.isClosed, file_answer path hvalues ▸ h.read⟩
  · next values hvalues =>
    generalize hsave : t.save path values.fileText = result
    obtain ⟨t', fault⟩ := result
    dsimp only
    rw [answer_stoppedBy hvalues]
    exact h.save hsave

/-! ## Many requests -/

/-- The file is found in the tree after any requests. -/
theorem StandsIn.after (h : s.StandsIn path t) (rs : List Request) :
    (s.after path (s.meet path t rs).1).StandsIn path (s.meet path t rs).2 := by
  induction rs generalizing s t with
  | nil => exact h
  | cons r rs ih => exact ih (h.answer r)

/-! ## Opening from the tree -/

/-- The store that is opened from the tree, with the text that was found there. -/
def opened (path : String) (t : FileTree) (values : Store) : FileStore := ⟨values, (t.read path).toOption⟩

/-- The file of a store that has just been opened is found in the tree. -/
theorem standsIn_opened (hclosed : t.IsClosed) (values : Store) :
    (opened path t values).StandsIn path t := by
  refine ⟨hclosed, fun text hfile => ?_⟩
  rw [opened] at hfile
  cases hread : t.read path with
  | ok text' =>
    rw [hread] at hfile
    exact congrArg Except.ok (Option.some.inj hfile)
  | error e =>
    rw [hread] at hfile
    exact nomatch hfile

/-- A store that has just been opened is what its file keeps. -/
theorem inStep_opened {values : Store} (h : Store.openFile path (t.read path) = .ok values) :
    InStep path (opened path t values) := by
  rw [InStep, found, opened]
  cases hread : t.read path with
  | ok text =>
    rw [hread] at h
    exact h
  | error e =>
    rw [hread] at h
    cases e with
    | notFound => exact h
    | _ => cases h

/-- A store that is opened from a tree and gets any requests, whatever stops their writing there, is found again
when it is opened from the tree that is left, if there is a file. -/
theorem openFile_meet (hclosed : t.IsClosed) {values : Store}
    (h : Store.openFile path (t.read path) = .ok values) (rs : List Request) :
    let start := opened path t values
    let s := start.after path (start.meet path t rs).1
    s.file.isSome = true → Store.openFile path ((start.meet path t rs).2.read path) = .ok s.values := by
  intro start s hfile
  obtain ⟨text, htext⟩ := Option.isSome_iff_exists.1 hfile
  have hopen : Store.openFile path s.found = .ok s.values := (inStep_opened h).after _
  rw [found, htext] at hopen
  rw [((standsIn_opened hclosed values).after rs).read text htext]
  exact hopen

/-- From an empty tree a key is set and erased again; the first change makes the directory. -/
example :
    let path := "state/values.json"
    let start := opened path ⟨[], []⟩ .empty
    let met := start.meet path ⟨[], []⟩ [.set "k" "1" none, .erase "k" none]
    met.2.read path = .ok "{}" ∧
      Store.openFile path (met.2.read path) = .ok (start.after path met.1).values :=
  ⟨by decide +kernel,
    openFile_meet (FileTree.isClosed_empty []) (by decide +kernel) _ (by decide +kernel)⟩

end NavPolicy.FileStore
