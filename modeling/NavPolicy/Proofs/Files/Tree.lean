import Mathlib.Data.List.Induction
import NavPolicy.Files.Tree

/-!
# Writing leaves the files in order

A text that has been saved at a path is read there, and one that could not be saved leaves the text that was read
there before (`FileTree.read_of_save`).

Both rest on what a path is followed through.  Everything stands in a directory (`FileTree.IsClosed`), so the
file that a path leads to is the one at its entrance (`FileTree.read_eq_ok_iff`), and an entrance stays what it
is as long as the directories stay (`FileTree.entrance_mono`).  No step of saving takes a directory away.
-/

namespace NavPolicy.FileTree

variable {t t' u : FileTree} {place dir q : List String} {part path text : String}

/-- A value comes out of two steps just if it comes out of the second with what comes out of the first. -/
theorem bind_eq_ok_iff {ε α β : Type} {x : Except ε α} {f : α → Except ε β} {b : β} :
    (x >>= f) = .ok b ↔ ∃ a, x = .ok a ∧ f a = .ok b := by
  refine ⟨fun h => ?_, ?_⟩
  · cases x with
    | ok a => exact ⟨a, rfl, h⟩
    | error e => exact nomatch h
  · rintro ⟨a, rfl, h⟩
    exact h

/-- Steps come to something just if all but the last do, and the last step from there. -/
theorem foldlM_concat_eq_ok_iff {ε α β : Type} {f : β → α → Except ε β} {xs : List α} {x : α} {b c : β} :
    (xs ++ [x]).foldlM f b = .ok c ↔ ∃ a, xs.foldlM f b = .ok a ∧ f a x = .ok c := by
  have hlast (a : β) : [x].foldlM f a = f a x := by
    rw [List.foldlM_cons]
    exact bind_pure _
  rw [List.foldlM_append, bind_eq_ok_iff]
  simp only [hlast]

/-! ## What stands where -/

/-- Looking up among the places that satisfy a condition. -/
theorem lookup_filter (keep : List String → Bool) (entries : List (List String × FileEntry)) (q : List String) :
    (entries.filter fun (p, _) => keep p).lookup q = if keep q then entries.lookup q else none := by
  induction entries with
  | nil => exact (ite_self none).symm
  | cons entry entries ih =>
    obtain ⟨p, e⟩ := entry
    rw [List.filter_cons, List.lookup_cons]
    by_cases hq : q = p
    · subst hq
      cases hkeep : keep q <;> simp [hkeep, ih]
    · have hne : (q == p) = false := beq_eq_false_iff_ne.2 hq
      cases hkeep : keep p <;> simp [hkeep, ih, hne, List.lookup_cons]

/-- There is always a directory at the top. -/
theorem isDirectory_nil (t : FileTree) : t.isDirectory [] = true := rfl

/-- Something that is put at a place stands there, and everything else stays. -/
theorem at?_put (hplace : place ≠ []) (e : FileEntry) (q : List String) :
    (t.put place e).at? q = if q = place then some e else t.at? q := by
  by_cases hnil : q = []
  · rw [hnil, if_neg (Ne.symm hplace)]
    rfl
  · have hentries := lookup_filter (fun p => p ≠ place) t.entries q
    simp only [at?, if_neg hnil, put, List.lookup_cons]
    by_cases hq : q = place
    · rw [if_pos hq, beq_iff_eq.2 hq]
    · rw [if_neg hq, beq_eq_false_iff_ne.2 hq]
      exact hentries.trans (if_pos (decide_eq_true hq))

/-- What is below a place goes with it, and everything else stays. -/
theorem at?_remove (hplace : place ≠ []) (q : List String) :
    (t.remove place).at? q = if place <+: q then none else t.at? q := by
  by_cases hnil : q = []
  · rw [hnil, if_neg (fun h => hplace (List.prefix_nil.1 h))]
    rfl
  · have hentries := lookup_filter (fun p => !place.isPrefixOf p) t.entries q
    simp only [at?, if_neg hnil, remove]
    rw [hentries]
    by_cases hq : place <+: q
    · rw [if_pos hq, List.isPrefixOf_iff_prefix.2 hq]
      rfl
    · rw [if_neg hq, Bool.eq_false_iff.2 fun h => hq (List.isPrefixOf_iff_prefix.1 h)]
      rfl

/-- Whether everything stands in a directory. -/
def IsClosed (t : FileTree) : Prop :=
  ∀ place part, (t.at? (place ++ [part])).isSome → t.isDirectory place

/-- A tree with nothing in it has nothing outside of a directory. -/
theorem isClosed_empty (here : List String) : IsClosed ⟨[], here⟩ := by
  intro place part hsome
  rw [at?, if_neg (List.concat_ne_nil part place)] at hsome
  exact absurd hsome Bool.false_ne_true

/-- A directory is something. -/
theorem isSome_of_isDirectory (h : t.isDirectory q = true) : (t.at? q).isSome = true := by
  rw [of_decide_eq_true h]
  rfl

/-- Nothing is no directory. -/
theorem isDirectory_of_none (h : t.at? q = none) : t.isDirectory q = false := by
  rw [isDirectory, h]
  exact decide_eq_false nofun

/-- A file is no directory. -/
theorem isDirectory_of_file {x : Option String} (h : t.at? q = some (.file x)) : t.isDirectory q = false := by
  rw [isDirectory, h]
  exact decide_eq_false nofun

/-- A directory is not where there is none. -/
theorem ne_of_isDirectory (hq : t.isDirectory q = true) (hplace : t.isDirectory place = false) :
    q ≠ place := by
  rintro rfl
  exact absurd (hplace.symm.trans hq) Bool.false_ne_true

/-- There is a directory at every place above something. -/
theorem IsClosed.isDirectory_above (h : t.IsClosed) (hq : (t.at? q).isSome = true) (habove : place <+: q)
    (hne : q ≠ place) : t.isDirectory place = true := by
  obtain ⟨rest, rfl⟩ := habove
  induction rest using List.reverseRecOn with
  | nil => exact absurd (List.append_nil place) hne
  | append_singleton rest part ih =>
    rw [← List.append_assoc] at hq
    have hdirectory := h _ _ hq
    by_cases hrest : place ++ rest = place
    · rwa [hrest] at hdirectory
    · exact ih (isSome_of_isDirectory hdirectory) hrest

/-- Above a directory there is a directory. -/
theorem IsClosed.isDirectory_dropLast (h : t.IsClosed) (hplace : t.isDirectory place = true) :
    t.isDirectory place.dropLast = true := by
  rcases List.eq_nil_or_concat place with rfl | ⟨init, last, rfl⟩
  · exact hplace
  · rw [List.concat_eq_append] at hplace ⊢
    rw [List.dropLast_concat]
    exact h init last (isSome_of_isDirectory hplace)

/-- What is put into a directory, where there was none, leaves everything in a directory. -/
theorem IsClosed.put (h : t.IsClosed) (hdir : t.isDirectory dir = true)
    (hfree : t.isDirectory (dir ++ [part]) = false) (e : FileEntry) : (t.put (dir ++ [part]) e).IsClosed := by
  have hat := at?_put (t := t) (List.concat_ne_nil part dir) e
  intro q x hsome
  have hq : t.isDirectory q = true := by
    rw [hat] at hsome
    split at hsome
    · next heq => rwa [(List.append_inj' heq rfl).1]
    · exact h q x hsome
  rw [isDirectory, hat, if_neg (ne_of_isDirectory hq hfree)]
  exact hq

/-- What stays when something is taken out stands in a directory. -/
theorem IsClosed.remove (h : t.IsClosed) (hplace : place ≠ []) : (t.remove place).IsClosed := by
  have hat := at?_remove (t := t) hplace
  intro q x hsome
  rw [hat] at hsome
  split at hsome
  · exact absurd hsome Bool.false_ne_true
  · next hstays =>
    rw [isDirectory, hat, if_neg fun hq => hstays (hq.trans (List.prefix_append q [x]))]
    exact h q x hsome

/-- Whether paths start at the same place, and every directory is still one. -/
structure KeepsDirectories (t t' : FileTree) : Prop where
  here : t'.here = t.here
  isDirectory : ∀ q, t.isDirectory q = true → t'.isDirectory q = true

/-- Whether paths start at the same place, everything stands where it stood, and what has come stands in a
directory. -/
structure Grows (t t' : FileTree) : Prop where
  here : t'.here = t.here
  at? : ∀ q e, t.at? q = some e → t'.at? q = some e
  isClosed : t.IsClosed → t'.IsClosed

theorem Grows.refl (t : FileTree) : t.Grows t := ⟨rfl, fun _ _ h => h, fun h => h⟩

theorem Grows.trans (h : t.Grows t') (h' : t'.Grows u) : t.Grows u :=
  ⟨h'.here.trans h.here, fun q e hq => h'.at? q e (h.at? q e hq), fun hclosed => h'.isClosed (h.isClosed hclosed)⟩

/-- A tree that grows keeps its directories. -/
theorem Grows.keepsDirectories (h : t.Grows t') : t.KeepsDirectories t' :=
  ⟨h.here, fun q hq => decide_eq_true (h.at? q _ (of_decide_eq_true hq))⟩

/-- What is put where nothing was lets the tree grow. -/
theorem grows_put (hdir : t.isDirectory dir = true) (hfree : t.at? (dir ++ [part]) = none) (e : FileEntry) :
    t.Grows (t.put (dir ++ [part]) e) := by
  refine ⟨rfl, fun q x hq => ?_, fun h => h.put hdir (isDirectory_of_none hfree) e⟩
  have hne : q ≠ dir ++ [part] := by
    rintro rfl
    exact nomatch hfree.symm.trans hq
  rw [at?_put (List.concat_ne_nil part dir), if_neg hne, hq]

/-- One more directory on the way to a place: the tree grows, and what was no file still is none. -/
theorem grows_putOnWay {n : Nat} (hfiles : ∀ m x, t.at? (place.take m) ≠ some (.file x))
    (hway : ∀ m < n, t.isDirectory (place.take m) = true) :
    let t' := if (t.at? (place.take n)).isSome then t else t.put (place.take n) .directory
    t.Grows t' ∧ (∀ m x, t'.at? (place.take m) ≠ some (.file x)) ∧ t'.isDirectory (place.take n) = true := by
  intro t'
  simp only [t']
  split
  · next hsome =>
    obtain ⟨e, he⟩ := Option.isSome_iff_exists.1 hsome
    cases e with
    | file x => exact absurd he (hfiles n x)
    | directory => exact ⟨.refl t, hfiles, decide_eq_true he⟩
  · next hnone =>
    have hnone := Option.not_isSome_iff_eq_none.1 hnone
    obtain ⟨dir, part, htake, hdir⟩ : ∃ dir part, place.take n = dir ++ [part] ∧ t.isDirectory dir = true := by
      cases n with
      | zero => exact nomatch hnone
      | succ n =>
        have hdir := hway n (Nat.lt_succ_self n)
        rcases Nat.lt_or_ge n place.length with hn | hn
        · exact ⟨place.take n, place[n], List.take_succ_eq_append_getElem hn, hdir⟩
        · -- behind the end of the place there is nothing more to put
          rw [List.take_of_length_le hn] at hdir
          rw [List.take_of_length_le (Nat.le_succ_of_le hn)] at hnone
          exact absurd rfl (ne_of_isDirectory hdir (isDirectory_of_none hnone))
    rw [htake] at hnone ⊢
    refine ⟨grows_put hdir hnone _, fun m x => ?_, ?_⟩
    · rw [at?_put (List.concat_ne_nil part dir)]
      split
      · exact nofun
      · exact hfiles m x
    · rw [isDirectory, at?_put (List.concat_ne_nil part dir), if_pos rfl]
      exact decide_eq_true rfl

/-- Putting directories on the way to a place where no file stands on it lets the tree grow, up to a directory at
the place. -/
theorem grows_putDirectories (hfiles : ∀ m x, t.at? (place.take m) ≠ some (.file x)) :
    t.Grows (t.putDirectories place) ∧ (t.putDirectories place).isDirectory place = true := by
  have hsteps (n : Nat) :
      let t' := (List.range n).foldl (fun t n =>
        if (t.at? (place.take n)).isSome then t else t.put (place.take n) .directory) t
      t.Grows t' ∧ (∀ m x, t'.at? (place.take m) ≠ some (.file x)) ∧
        ∀ m < n, t'.isDirectory (place.take m) = true := by
    induction n with
    | zero => exact ⟨.refl t, hfiles, fun m hm => absurd hm (Nat.not_lt_zero m)⟩
    | succ n ih =>
      obtain ⟨hgrows, hfiles, hway⟩ := ih
      obtain ⟨hlast, hfiles, hdir⟩ := grows_putOnWay hfiles hway
      rw [List.range_succ, List.foldl_append]
      refine ⟨hgrows.trans hlast, hfiles, fun m hm => ?_⟩
      rcases Nat.lt_succ_iff_lt_or_eq.1 hm with hm | rfl
      · exact hlast.keepsDirectories.isDirectory _ (hway m hm)
      · exact hdir
  obtain ⟨hgrows, -, hway⟩ := hsteps (place.length + 1)
  refine ⟨hgrows, ?_⟩
  have hplace := hway place.length (Nat.lt_succ_self _)
  rwa [List.take_length] at hplace

/-- What is put where no directory was keeps the directories. -/
theorem keepsDirectories_put (hplace : place ≠ []) (hfree : t.isDirectory place = false) (e : FileEntry) :
    t.KeepsDirectories (t.put place e) := by
  refine ⟨rfl, fun q hq => ?_⟩
  rw [isDirectory, at?_put hplace, if_neg (ne_of_isDirectory hq hfree)]
  exact hq

/-- Taking out what is no directory keeps the directories. -/
theorem IsClosed.keepsDirectories_remove (h : t.IsClosed) (hplace : t.isDirectory place = false) :
    t.KeepsDirectories (t.remove place) := by
  have hnil : place ≠ [] := (ne_of_isDirectory t.isDirectory_nil hplace).symm
  refine ⟨rfl, fun q hq => ?_⟩
  have hstays : ¬ place <+: q := by
    intro habove
    have hdir := h.isDirectory_above (isSome_of_isDirectory hq) habove (ne_of_isDirectory hq hplace)
    exact ne_of_isDirectory hdir hplace rfl
  rw [isDirectory, at?_remove hnil, if_neg hstays]
  exact hq

/-! ## Following paths -/

/-- A name goes somewhere, and not up. -/
theorem isName_iff : Path.isName part = true ↔ Path.isIdle part = false ∧ part ≠ ".." := by
  rw [Path.isName, Bool.and_eq_true, Bool.not_eq_true', decide_eq_true_iff]

/-- Where a part of a path leads from a directory. -/
inductive Leads (t : FileTree) (place : List String) : String → List String → Prop
  | stay {part : String} : Path.isIdle part = true → Leads t place part place
  | up : Leads t place ".." place.dropLast
  | down {part : String} : Path.isName part = true → checkName part = .ok () →
      (t.at? (place ++ [part])).isSome = true → Leads t place part (place ++ [part])

/-- A step starts from a directory, and goes where the part leads. -/
theorem step_eq_ok_iff :
    t.step place part = .ok q ↔ t.isDirectory place = true ∧ t.Leads place part q := by
  rw [step]
  refine ⟨fun h => ?_, fun ⟨hplace, hleads⟩ => ?_⟩
  · split at h
    · exact nomatch h
    · next hplace =>
      rw [Bool.not_eq_true, Bool.not_eq_false'] at hplace
      refine ⟨hplace, ?_⟩
      split at h
      · next hidle =>
        cases h
        exact .stay hidle
      · next hidle =>
        split at h
        · next hup =>
          cases h
          rw [hup]
          exact .up
        · next hup =>
          obtain ⟨_, hcheck, h⟩ := bind_eq_ok_iff.1 h
          split at h
          · next hsome =>
            cases h
            exact .down (isName_iff.2 ⟨Bool.eq_false_iff.2 hidle, hup⟩) hcheck hsome
          · exact nomatch h
  · rw [hplace, Bool.not_true, if_neg Bool.false_ne_true]
    cases hleads with
    | stay hidle => rw [if_pos hidle]
    | up => rfl
    | down hname hcheck hsome =>
      obtain ⟨hidle, hup⟩ := isName_iff.1 hname
      rw [hidle, if_neg Bool.false_ne_true, if_neg hup, hcheck]
      exact if_pos hsome

/-- A path is followed to the same place as long as the directories stay, and the place. -/
theorem foldlM_step_mono (hdirs : ∀ d, t.isDirectory d = true → t'.isDirectory d = true)
    {parts : List String} (h : parts.foldlM t.step place = .ok q) (hq : (t'.at? q).isSome = true) :
    parts.foldlM t'.step place = .ok q := by
  induction parts using List.reverseRecOn generalizing q with
  | nil => exact h
  | append_singleton parts part ih =>
    obtain ⟨p, hparts, hlast⟩ := foldlM_concat_eq_ok_iff.1 h
    obtain ⟨hp, hleads⟩ := step_eq_ok_iff.1 hlast
    have hleads' : t'.Leads p part q := by
      cases hleads with
      | stay hidle => exact .stay hidle
      | up => exact .up
      | down hname hcheck _ => exact .down hname hcheck hq
    exact foldlM_concat_eq_ok_iff.2
      ⟨p, ih hparts (isSome_of_isDirectory (hdirs p hp)), step_eq_ok_iff.2 ⟨hdirs p hp, hleads'⟩⟩

/-! ### Entrances -/

/-- Where the parts of a path start to be followed depends only on where paths start. -/
theorem start_congr (h : t'.here = t.here) (path : String) : t'.start path = t.start path := by
  rw [start, start, h]

/-- The parts of a path without the empty ones at its end. -/
def named (parts : List String) : List String := (parts.reverse.dropWhile (· = "")).reverse

/-- Where no part is missing there is no empty one at the end. -/
theorem named_eq_self {parts : List String} (h : parts.length ≤ (named parts).length) :
    named parts = parts := by
  have hends := List.reverse_prefix.2 (List.dropWhile_suffix (l := parts.reverse) fun part => decide (part = ""))
  rw [List.reverse_reverse] at hends
  exact hends.eq_of_length_le h

/-- A part that is not empty stands at the end. -/
theorem named_concat {init : List String} (h : part ≠ "") : named (init ++ [part]) = init ++ [part] := by
  rw [named, List.reverse_append, List.reverse_singleton, List.singleton_append,
    List.dropWhile_cons_of_neg (by rwa [decide_eq_true_iff]), List.reverse_cons, List.reverse_reverse]

/-- A path has parts. -/
theorem parts_ne_nil_of_start {parts : List String} (h : t.start path = .ok (parts, place)) : parts ≠ [] := by
  have hsplit (cs : List Char) : Path.split cs ≠ [] := by
    fun_cases Path.split cs <;> exact List.cons_ne_nil _ _
  have hparts : parts = Path.parts path := by
    rw [start] at h
    split at h
    · exact nomatch h
    · split at h
      · exact nomatch h
      · split at h
        · exact nomatch h
        · cases h
          rfl
  rw [hparts, Path.parts, ne_eq, List.map_eq_nil_iff]
  exact hsplit _

/-- An entrance is found where the parts before the last one lead to a directory. -/
theorem entrance_eq_ok_iff {e : Entrance} : t.entrance path = .ok e ↔
    ∃ parts place, t.start path = .ok (parts, place) ∧
      (named parts).dropLast.foldlM t.step place = .ok e.directory ∧ t.isDirectory e.directory = true ∧
        e.part = (named parts).getLastD "." ∧ e.slashed = decide ((named parts).length < parts.length) := by
  rw [entrance, bind_eq_ok_iff]
  constructor
  · rintro ⟨⟨parts, place⟩, hstart, h⟩
    obtain ⟨directory, hwalk, h⟩ := bind_eq_ok_iff.1 h
    split at h
    · next hdir =>
      cases h
      exact ⟨parts, place, hstart, hwalk, hdir, rfl, rfl⟩
    · exact nomatch h
  · rintro ⟨parts, place, hstart, hwalk, hdir, hpart, hslashed⟩
    refine ⟨(parts, place), hstart, bind_eq_ok_iff.2 ⟨e.directory, hwalk, ?_⟩⟩
    rw [if_pos hdir]
    obtain ⟨directory, part, slashed⟩ := e
    cases hpart
    cases hslashed
    rfl

/-- An entrance is one of a directory. -/
theorem isDirectory_of_entrance {e : Entrance} (h : t.entrance path = .ok e) :
    t.isDirectory e.directory = true := by
  obtain ⟨-, -, -, -, hdir, -⟩ := entrance_eq_ok_iff.1 h
  exact hdir

theorem Entrance.place_ne_nil (e : Entrance) : e.place ≠ [] := List.concat_ne_nil e.part e.directory

/-- An entrance stays as long as the directories do. -/
theorem entrance_mono (h : t.KeepsDirectories t') {e : Entrance} (hpath : t.entrance path = .ok e) :
    t'.entrance path = .ok e := by
  obtain ⟨parts, place, hstart, hwalk, hdir, hrest⟩ := entrance_eq_ok_iff.1 hpath
  have hdir' := h.isDirectory _ hdir
  exact entrance_eq_ok_iff.2 ⟨parts, place, (start_congr h.here path).trans hstart,
    foldlM_step_mono h.isDirectory hwalk (isSome_of_isDirectory hdir'), hdir', hrest⟩

/-- Whether an entrance is one to a file: by a name that a file can have, with no slash behind it. -/
structure Entrance.IsForFile (e : Entrance) : Prop where
  isName : Path.isName e.part = true
  checkName : checkName e.part = .ok ()
  slashed : e.slashed = false

/-- A path leads by an entrance for a file to what stands there. -/
theorem find_of_entrance {e : Entrance} (hpath : t.entrance path = .ok e) (he : e.IsForFile)
    (hsome : (t.at? e.place).isSome = true) : t.find path = .ok e.place := by
  obtain ⟨parts, place, hstart, hwalk, hdir, hpart, hslashed⟩ := entrance_eq_ok_iff.1 hpath
  have hnamed : named parts = parts := by
    rw [he.slashed, eq_comm, decide_eq_false_iff_not, Nat.not_lt] at hslashed
    exact named_eq_self hslashed
  rw [hnamed] at hwalk hpart
  refine bind_eq_ok_iff.2 ⟨(parts, place), hstart, ?_⟩
  rcases List.eq_nil_or_concat parts with rfl | ⟨init, last, rfl⟩
  · have hname := he.isName
    rw [hpart] at hname
    exact absurd hname (by decide)
  · rw [List.concat_eq_append, List.dropLast_concat] at hwalk
    rw [List.concat_eq_append, List.getLastD_concat] at hpart
    rw [List.concat_eq_append, ← hpart]
    exact foldlM_concat_eq_ok_iff.2 ⟨_, hwalk, step_eq_ok_iff.2 ⟨hdir, .down he.isName he.checkName hsome⟩⟩

/-- A path that leads to a file has an entrance for it. -/
theorem IsClosed.exists_entrance (h : t.IsClosed) (hpath : t.find path = .ok q) {x : Option String}
    (hfile : t.at? q = some (.file x)) : ∃ e, t.entrance path = .ok e ∧ e.IsForFile ∧ e.place = q := by
  obtain ⟨⟨parts, place⟩, hstart, hparts⟩ := bind_eq_ok_iff.1 hpath
  obtain ⟨init, last, rfl⟩ := (List.eq_nil_or_concat parts).resolve_left (parts_ne_nil_of_start hstart)
  rw [List.concat_eq_append] at hstart hparts
  obtain ⟨dir, hwalk, hlast⟩ := foldlM_concat_eq_ok_iff.1 hparts
  obtain ⟨hdir, hleads⟩ := step_eq_ok_iff.1 hlast
  have hq := isDirectory_of_file hfile
  cases hleads with
  | stay hidle => exact absurd rfl (ne_of_isDirectory hdir hq)
  | up => exact absurd rfl (ne_of_isDirectory (h.isDirectory_dropLast hdir) hq)
  | down hname hcheck _ =>
    have hpart : last ≠ "" := by
      rintro rfl
      exact absurd hname (by decide)
    refine ⟨⟨dir, last, false⟩, entrance_eq_ok_iff.2 ⟨_, _, hstart, ?_⟩, ⟨hname, hcheck, rfl⟩, rfl⟩
    rw [named_concat hpart, List.dropLast_concat, List.getLastD_concat]
    exact ⟨hwalk, hdir, rfl, (decide_eq_false (Nat.lt_irrefl _)).symm⟩

/-- The file that is read by a path is the one at its entrance. -/
theorem read_eq_ok_iff (h : t.IsClosed) : t.read path = .ok text ↔
    ∃ e, t.entrance path = .ok e ∧ e.IsForFile ∧ t.at? e.place = some (.file (some text)) := by
  rw [read, bind_eq_ok_iff]
  constructor
  · rintro ⟨q, hfind, hread⟩
    split at hread
    · next text' hfile =>
      cases hread
      obtain ⟨e, hpath, he, rfl⟩ := h.exists_entrance hfind hfile
      exact ⟨e, hpath, he, hfile⟩
    all_goals exact nomatch hread
  · rintro ⟨e, hpath, he, hfile⟩
    refine ⟨e.place, find_of_entrance hpath he ?_, ?_⟩
    · rw [hfile]
      rfl
    · rw [hfile]
      rfl

/-! ## Changes -/

/-- A text is written where an entrance is for a file and there is no directory. -/
theorem write_eq_ok_iff : t.write path text = .ok t' ↔
    ∃ e, t.entrance path = .ok e ∧ e.IsForFile ∧ t.isDirectory e.place = false ∧
      t' = t.put e.place (.file (some text)) := by
  rw [write, bind_eq_ok_iff]
  constructor
  · rintro ⟨e, hpath, h⟩
    dsimp only at h
    split at h
    · exact nomatch h
    · next hkind =>
      obtain ⟨_, hcheck, h⟩ := bind_eq_ok_iff.1 h
      split at h
      · exact nomatch h
      · next hdir =>
        cases h
        rw [Bool.not_eq_true, Bool.or_eq_false_iff, Bool.not_eq_false'] at hkind
        exact ⟨e, hpath, ⟨hkind.2, hcheck, hkind.1⟩, Bool.eq_false_iff.2 hdir, rfl⟩
  · rintro ⟨e, hpath, he, hdir, rfl⟩
    refine ⟨e, hpath, ?_⟩
    simp only [he.slashed, he.isName, he.checkName, hdir]
    rfl

/-- What an entrance for a file leads to takes the place of what another one does, unless that is a directory. -/
theorem rename_eq_ok_iff {source target : String} : t.rename source target = .ok t' ↔
    ∃ s e entry, t.entrance source = .ok s ∧ t.entrance target = .ok e ∧ s.IsForFile ∧ e.IsForFile ∧
      t.at? s.place = some entry ∧ t.isDirectory e.place = false ∧
        t' = (t.remove s.place).put e.place entry := by
  rw [rename, bind_eq_ok_iff]
  constructor
  · rintro ⟨s, hsource, h⟩
    obtain ⟨e, htarget, h⟩ := bind_eq_ok_iff.1 h
    dsimp only at h
    split at h
    · exact nomatch h
    · next hnames =>
      obtain ⟨_, hschecked, h⟩ := bind_eq_ok_iff.1 h
      split at h
      · exact nomatch h
      · next entry hentry =>
        obtain ⟨_, hechecked, h⟩ := bind_eq_ok_iff.1 h
        split at h
        · exact nomatch h
        · next hslashed =>
          split at h
          · exact nomatch h
          · next hdir =>
            cases h
            rw [Bool.not_eq_true, Bool.or_eq_false_iff, Bool.not_eq_false', Bool.not_eq_false'] at hnames
            rw [Bool.not_eq_true, Bool.or_eq_false_iff] at hslashed
            exact ⟨s, e, entry, hsource, htarget, ⟨hnames.1, hschecked, hslashed.1⟩,
              ⟨hnames.2, hechecked, hslashed.2⟩, hentry, Bool.eq_false_iff.2 hdir, rfl⟩
  · rintro ⟨s, e, entry, hsource, htarget, hs, he, hentry, hdir, rfl⟩
    refine ⟨s, hsource, bind_eq_ok_iff.2 ⟨e, htarget, ?_⟩⟩
    simp only [hs.isName, hs.checkName, hs.slashed, he.isName, he.checkName, he.slashed, hentry, hdir]
    rfl

/-- Making a directory lets the tree grow. -/
theorem grows_makeDirectory (h : t.makeDirectory path = .ok t') : t.Grows t' := by
  obtain ⟨e, hpath, h⟩ := bind_eq_ok_iff.1 h
  have hdir := isDirectory_of_entrance hpath
  dsimp only at h
  split at h
  · exact nomatch h
  · obtain ⟨_, -, h⟩ := bind_eq_ok_iff.1 h
    split at h
    · exact nomatch h
    · next hnone =>
      cases h
      exact grows_put hdir (Option.not_isSome_iff_eq_none.1 hnone) .directory

/-- Making the directories that are missing lets the tree grow, whatever stops it. -/
theorem grows_makeDirectories (t : FileTree) (parts : List String) :
    t.Grows (t.makeDirectories parts).1 := by
  induction parts generalizing t with
  | nil => exact .refl t
  | cons part parts ih =>
    rw [makeDirectories]
    split
    · exact ih t
    · extract_lets path make
      have hmake (t : FileTree) : t.Grows (make t).1 := by
        simp only [make]
        split
        · next h => exact grows_makeDirectory h
        · split
          · split <;> exact .refl t
          · exact .refl t
      have hfirst := hmake t
      split
      · next first heq =>
        rw [heq] at hfirst
        have habove := hfirst.trans (ih first)
        split
        · next above heq =>
          rw [heq] at habove
          exact habove.trans (hmake above)
        · next above e heq =>
          rw [heq] at habove
          exact habove
      · exact hfirst

/-! ## Saving -/

/-- A text that is read is still read when the tree has grown. -/
theorem read_of_grows (hclosed : t.IsClosed) (h : t.Grows t') (hread : t.read path = .ok text) :
    t'.read path = .ok text := by
  obtain ⟨e, hpath, he, hfile⟩ := (read_eq_ok_iff hclosed).1 hread
  exact (read_eq_ok_iff (h.isClosed hclosed)).2
    ⟨e, entrance_mono h.keepsDirectories hpath, he, h.at? _ _ hfile⟩

/-- A text that is written stands at the entrance, and the directories stay. -/
theorem written (h : t.write path text = .ok t') : t.KeepsDirectories t' ∧ (t.IsClosed → t'.IsClosed) ∧
    ∃ e, t'.entrance path = .ok e ∧ e.IsForFile ∧ t'.at? e.place = some (.file (some text)) := by
  obtain ⟨e, hpath, he, hdir, rfl⟩ := write_eq_ok_iff.1 h
  have hkeeps := keepsDirectories_put e.place_ne_nil hdir (.file (some text))
  refine ⟨hkeeps, fun hclosed => hclosed.put (isDirectory_of_entrance hpath) hdir _,
    e, entrance_mono hkeeps hpath, he, ?_⟩
  rw [at?_put e.place_ne_nil, if_pos rfl]

/-- A file that takes the place of another one is read there. -/
theorem read_of_rename {source target : String} (hclosed : t.IsClosed)
    (hsource : ∃ s, t.entrance source = .ok s ∧ t.at? s.place = some (.file (some text)))
    (h : t.rename source target = .ok t') : t'.IsClosed ∧ t'.read target = .ok text := by
  obtain ⟨s, e, entry, hs, htarget, -, he, hentry, hdir, rfl⟩ := rename_eq_ok_iff.1 h
  obtain ⟨s', hs', hfile⟩ := hsource
  obtain rfl : s = s' := Except.ok.inj (hs.symm.trans hs')
  obtain rfl : entry = .file (some text) := Option.some.inj (hentry.symm.trans hfile)
  have htaken := hclosed.keepsDirectories_remove (isDirectory_of_file hfile)
  have hfree : (t.remove s.place).isDirectory e.place = false := by
    rw [isDirectory, at?_remove s.place_ne_nil]
    split
    · rfl
    · exact hdir
  have hput := keepsDirectories_put e.place_ne_nil hfree (.file (some text))
  have hclosed' : ((t.remove s.place).put e.place (.file (some text))).IsClosed :=
    (hclosed.remove s.place_ne_nil).put (htaken.isDirectory _ (isDirectory_of_entrance htarget)) hfree _
  refine ⟨hclosed', (read_eq_ok_iff hclosed').2 ⟨e, entrance_mono hput (entrance_mono htaken htarget), he, ?_⟩⟩
  rw [at?_put e.place_ne_nil, if_pos rfl]

/-- Where a text could be read before a draft was written, the draft can take the place of its file. -/
theorem exists_rename {source target old : String} (hclosed : t.IsClosed)
    (hread : t.read target = .ok old) (hwrite : t.write source text = .ok t') :
    ∃ u, t'.rename source target = .ok u := by
  obtain ⟨hkeeps, -, s, hs, hsource, hdraft⟩ := written hwrite
  obtain ⟨e, htarget, he, hfile⟩ := (read_eq_ok_iff hclosed).1 hread
  obtain ⟨s', -, -, -, rfl⟩ := write_eq_ok_iff.1 hwrite
  -- the draft and the file may be the same
  have hdir : (t.put s'.place (.file (some text))).isDirectory e.place = false := by
    rw [isDirectory, at?_put s'.place_ne_nil]
    split
    · exact decide_eq_false nofun
    · exact isDirectory_of_file hfile
  exact ⟨_, rename_eq_ok_iff.2
    ⟨s, e, _, hs, entrance_mono hkeeps htarget, hsource, he, hdraft, hdir, rfl⟩⟩

/-- What saving comes to: it stops with the directories, with the draft or behind it, or the draft takes the place
of the file. -/
inductive Saves (t : FileTree) (path text : String) : FileTree → Option IoError → Prop
  | stopped {above : FileTree} {e : IoError} : t.Grows above → Saves t path text above (some e)
  | drafted {above drafted : FileTree} {e : IoError} : t.Grows above →
      above.write (Path.draft path) text = .ok drafted → drafted.rename (Path.draft path) path = .error e →
      Saves t path text drafted (some e)
  | saved {above drafted saved : FileTree} : t.Grows above →
      above.write (Path.draft path) text = .ok drafted → drafted.rename (Path.draft path) path = .ok saved →
      Saves t path text saved none

theorem saves (t : FileTree) (path text : String) :
    t.Saves path text (t.save path text).1 (t.save path text).2 := by
  have hgrows := grows_makeDirectories t (Path.parentParts path).reverse
  rw [save]
  split
  · next above e habove =>
    rw [habove] at hgrows
    exact .stopped hgrows
  · next above habove =>
    rw [habove] at hgrows
    split
    · exact .stopped hgrows
    · next drafted hdrafted =>
      split
      · next hrename => exact .drafted hgrows hdrafted hrename
      · next hrename => exact .saved hgrows hdrafted hrename

/-- Saving leaves everything in a directory.  A text that has been saved is read; one that could not be saved
leaves the text that was read before. -/
theorem read_of_save {fault : Option IoError} (hclosed : t.IsClosed)
    (h : t.save path text = (t', fault)) :
    t'.IsClosed ∧ match fault with
      | none => t'.read path = .ok text
      | some _ => ∀ old, t.read path = .ok old → t'.read path = .ok old := by
  have hsaves := t.saves path text
  rw [h] at hsaves
  cases hsaves with
  | stopped hgrows => exact ⟨hgrows.isClosed hclosed, fun old hread => read_of_grows hclosed hgrows hread⟩
  | @drafted above drafted e hgrows hwrite hrename =>
    have habove := hgrows.isClosed hclosed
    refine ⟨(written hwrite).2.1 habove, fun old hread => ?_⟩
    -- a file that is read can be replaced, so that the draft is not what stops it
    obtain ⟨u, hrenamed⟩ := exists_rename habove (read_of_grows hclosed hgrows hread) hwrite
    exact nomatch hrename.symm.trans hrenamed
  | saved hgrows hwrite hrename =>
    obtain ⟨-, hdrafted, s, hs, -, hdraft⟩ := written hwrite
    exact read_of_rename (hdrafted (hgrows.isClosed hclosed)) ⟨s, hs, hdraft⟩ hrename

end NavPolicy.FileTree
