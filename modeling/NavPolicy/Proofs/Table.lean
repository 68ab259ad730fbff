import Mathlib.Data.List.Induction
import Mathlib.Data.List.Nodup
import NavPolicy.Table

/-!
# Lookups in tables

A table is determined by its lookups (`Ascending.ext`), and a lookup in the table of a list finds the
last entry of the list with the key (`find?_ofList`).  The table of a list is as long as the list just
when no key occurs twice (`length_ofList_eq_iff`), and then holds the entries of the list in order
(`ofList_perm`); a list that ascends already is its own table (`ofList_eq_self`).
-/

namespace NavPolicy.Table

variable {α κ : Type} [LT κ] [DecidableLT κ] [DecidableEq κ]
variable [LE κ] [Std.IsLinearOrder κ] [Std.LawfulOrderLT κ]
variable {key : α → κ}

/-! ## Lookups -/

omit [LT κ] [DecidableLT κ] [LE κ] [Std.IsLinearOrder κ] [Std.LawfulOrderLT κ] in
/-- Looking up in a list goes through it from the front. -/
theorem find?_cons (k : κ) (x : α) (table : List α) :
    find? key k (x :: table) = if key x = k then some x else find? key k table := by
  by_cases h : key x = k <;> simp [find?, h]

/-- The entry that was set in is found under its key, and nothing changes under other keys. -/
theorem find?_put (k : κ) (x : α) (table : List α) :
    find? key k (put key x table) = if key x = k then some x else find? key k table := by
  induction table with
  | nil => rw [put, find?_cons]
  | cons y ys ih =>
    rw [put]
    split
    · rw [find?_cons]
    · rename_i hxy
      split
      · rename_i hyx
        rw [find?_cons, find?_cons, ih]
        by_cases hk : key x = k
        · have hne : key y ≠ k := fun h => Std.not_lt_of_ge (Std.le_of_eq (hk.trans h.symm)) hyx
          rw [if_neg hne, if_pos hk, if_pos hk]
        · rw [if_neg hk, if_neg hk]
      · rename_i hyx
        have heq : key x = key y := Std.le_antisymm (Std.not_lt.1 hyx) (Std.not_lt.1 hxy)
        rw [find?_cons, find?_cons]
        by_cases hk : key x = k
        · rw [if_pos hk, if_pos hk]
        · have hne : key y ≠ k := heq ▸ hk
          rw [if_neg hk, if_neg hk, if_neg hne]

/-- Among entries set in one after the other, the last one with a key is found. -/
theorem find?_putAll (k : κ) (entries table : List α) :
    find? key k (putAll key entries table) =
      (entries.findRev? fun x => key x = k).or (find? key k table) := by
  induction entries generalizing table with
  | nil => rfl
  | cons x xs ih =>
    have hstep : putAll key (x :: xs) table = putAll key xs (put key x table) := rfl
    rw [hstep, ih, find?_put, List.findRev?]
    cases xs.findRev? fun x => key x = k with
    | some y => rfl
    | none => by_cases hk : key x = k <;> simp [hk]

/-- The table of a list holds the last entry with each key. -/
theorem find?_ofList (k : κ) (entries : List α) :
    find? key k (ofList key entries) = entries.findRev? fun x => key x = k := by
  rw [ofList, find?_putAll]
  exact Option.or_none

omit [LT κ] [DecidableLT κ] [LE κ] [Std.IsLinearOrder κ] [Std.LawfulOrderLT κ] in
/-- A key is found in a list just when an entry has it. -/
theorem find?_eq_none_iff {k : κ} {table : List α} :
    find? key k table = none ↔ k ∉ table.map key := by
  simp [find?, List.find?_eq_none]

omit [LT κ] [DecidableLT κ] [LE κ] [Std.IsLinearOrder κ] [Std.LawfulOrderLT κ] in
/-- Nothing is found under the key that was dropped, and nothing changes under other keys. -/
theorem find?_drop (k l : κ) (table : List α) :
    find? key k (drop key l table) = if l = k then none else find? key k table := by
  induction table with
  | nil => simp [drop, find?]
  | cons x xs ih =>
    rw [find?_cons]
    by_cases hx : key x = l
    · have hstep : drop key l (x :: xs) = drop key l xs := by simp [drop, hx]
      rw [hstep, ih, hx]
      split <;> rfl
    · have hstep : drop key l (x :: xs) = x :: drop key l xs := by simp [drop, hx]
      rw [hstep, find?_cons, ih]
      by_cases hk : key x = k
      · rw [if_pos hk, if_pos hk, if_neg fun h => hx (hk.trans h.symm)]
      · rw [if_neg hk, if_neg hk]

/-! ## Tables with the same lookups -/

omit [DecidableLT κ] in
/-- The first entry of a table stands under the least of its keys. -/
theorem Ascending.find?_eq_none_of_lt {k : κ} {x : α} {table : List α}
    (h : Ascending key (x :: table)) (hk : k < key x) : find? key k (x :: table) = none := by
  rw [find?_eq_none_iff, List.mem_map]
  rintro ⟨y, hy, rfl⟩
  rcases List.mem_cons.1 hy with rfl | hy
  · exact Std.lt_irrefl hk
  · exact Std.lt_irrefl (Std.lt_trans hk ((List.pairwise_cons.1 h).1 y hy))

omit [DecidableLT κ] [Std.IsLinearOrder κ] in
/-- Nothing in the rest of a table stands under the key of its first entry. -/
theorem Ascending.find?_tail {x : α} {table : List α} (h : Ascending key (x :: table)) :
    find? key (key x) table = none := by
  rw [find?_eq_none_iff, List.mem_map]
  rintro ⟨y, hy, hxy⟩
  exact Std.lt_irrefl (hxy ▸ (List.pairwise_cons.1 h).1 y hy)

omit [DecidableLT κ] [Std.IsLinearOrder κ] in
/-- An entry of a table is what is found under its key. -/
theorem Ascending.find?_eq_some_iff {x : α} {table : List α} (h : Ascending key table) :
    find? key (key x) table = some x ↔ x ∈ table := by
  constructor
  · exact List.mem_of_find?_eq_some
  · intro hx
    induction table with
    | nil => exact absurd hx List.not_mem_nil
    | cons y ys ih =>
      obtain ⟨hy, hys⟩ := List.pairwise_cons.1 h
      rw [find?_cons]
      rcases List.mem_cons.1 hx with rfl | hx
      · rw [if_pos rfl]
      · have hne : key y ≠ key x := fun heq => Std.lt_irrefl (heq ▸ hy x hx)
        rw [if_neg hne]
        exact ih hys hx

omit [DecidableLT κ] [DecidableEq κ] [Std.IsLinearOrder κ] in
/-- No key occurs twice in a table. -/
theorem Ascending.nodup_keys {table : List α} (h : Ascending key table) :
    (table.map key).Nodup := by
  refine List.pairwise_map.2 (List.Pairwise.imp ?_ h)
  intro x y hlt heq
  exact Std.lt_irrefl (heq ▸ hlt)

omit [DecidableLT κ] [DecidableEq κ] in
/-- A search through a table finds, of the entries that have what is sought, the one with the least key. -/
theorem Ascending.search_eq_some_iff {p : α → Bool} {x : α} {table : List α}
    (h : Ascending key table) :
    table.find? p = some x ↔ x ∈ table ∧ p x = true ∧ ∀ y ∈ table, p y = true → key x ≤ key y := by
  rw [List.find?_eq_some_iff_append]
  constructor
  · rintro ⟨hx, earlier, later, rfl, hearlier⟩
    refine ⟨by simp, hx, fun y hy hpy => ?_⟩
    rcases List.mem_append.1 hy with hy | hy
    · exact absurd hpy (by simpa using hearlier y hy)
    · rcases List.mem_cons.1 hy with rfl | hy
      · exact Std.le_refl _
      · obtain ⟨-, hrest, -⟩ := List.pairwise_append.1 h
        exact Std.le_of_lt ((List.pairwise_cons.1 hrest).1 y hy)
  · rintro ⟨hmem, hx, hleast⟩
    obtain ⟨earlier, later, rfl⟩ := List.append_of_mem hmem
    obtain ⟨-, -, hbefore⟩ := List.pairwise_append.1 h
    refine ⟨hx, earlier, later, rfl, fun y hy => ?_⟩
    have hlt : key y < key x := hbefore y hy x (by simp)
    have hnot : ¬ p y = true := fun hpy =>
      Std.not_lt_of_ge (hleast y (List.mem_append_left _ hy) hpy) hlt
    simpa using hnot

omit [DecidableLT κ] in
/-- Two tables with the same lookups are the same list. -/
theorem Ascending.ext {s t : List α} (hs : Ascending key s) (ht : Ascending key t)
    (h : ∀ k, find? key k s = find? key k t) : s = t := by
  induction s generalizing t with
  | nil =>
    cases t with
    | nil => rfl
    | cons y ys =>
      have hy := h (key y)
      rw [find?_cons, if_pos rfl] at hy
      exact absurd hy (by simp [find?])
  | cons x xs ih =>
    cases t with
    | nil =>
      have hx := h (key x)
      rw [find?_cons, if_pos rfl] at hx
      exact absurd hx (by simp [find?])
    | cons y ys =>
      -- The first entries have the same key: the lesser one would not be found in the other table.
      have hkey : key x = key y := by
        rcases Std.lt_trichotomy (key x) (key y) with hlt | heq | hgt
        · have hx := h (key x)
          rw [find?_cons, if_pos rfl, ht.find?_eq_none_of_lt hlt] at hx
          exact absurd hx (by simp)
        · exact heq
        · have hy := h (key y)
          rw [find?_cons (x := y), if_pos rfl, hs.find?_eq_none_of_lt hgt] at hy
          exact absurd hy (by simp)
      have hxy : x = y := by
        have hx := h (key x)
        rw [find?_cons, find?_cons, if_pos rfl, if_pos hkey.symm] at hx
        exact Option.some.inj hx
      subst hxy
      -- under the common key there is nothing in the rest of either table
      have htail : xs = ys := by
        refine ih (List.pairwise_cons.1 hs).2 (List.pairwise_cons.1 ht).2 fun k => ?_
        by_cases hk : key x = k
        · rw [← hk, hs.find?_tail, ht.find?_tail]
        · have hrest := h k
          rwa [find?_cons, find?_cons, if_neg hk, if_neg hk] at hrest
      rw [htail]

/-! ## Tables of lists -/

omit [DecidableEq κ] in
/-- An entry whose key comes after all others is set in at the end. -/
theorem put_eq_append {x : α} {table : List α} (h : ∀ y ∈ table, key y < key x) :
    put key x table = table ++ [x] := by
  induction table with
  | nil => rfl
  | cons y ys ih =>
    have hy : key y < key x := h y (by simp)
    rw [put, if_neg (fun hlt => Std.lt_irrefl (Std.lt_trans hlt hy)), if_pos hy,
      ih fun z hz => h z (by simp [hz]), List.cons_append]

omit [DecidableEq κ] [LE κ] [Std.IsLinearOrder κ] [Std.LawfulOrderLT κ] in
/-- The table of a list with a further entry. -/
theorem ofList_append_singleton (entries : List α) (x : α) :
    ofList key (entries ++ [x]) = put key x (ofList key entries) := by
  simp [ofList, putAll]

omit [DecidableEq κ] in
/-- A list that ascends is its own table. -/
theorem ofList_eq_self {entries : List α} (h : Ascending key entries) :
    ofList key entries = entries := by
  induction entries using List.reverseRecOn with
  | nil => rfl
  | append_singleton xs x ih =>
    obtain ⟨hxs, -, hlast⟩ := List.pairwise_append.1 h
    rw [ofList_append_singleton, ih hxs]
    exact put_eq_append fun y hy => hlast y hy x (by simp)

/-- Setting in an entry makes a table longer just when its key is new. -/
theorem length_put {x : α} {table : List α} (h : Ascending key table) :
    (put key x table).length =
      if key x ∈ table.map key then table.length else table.length + 1 := by
  induction table with
  | nil => rfl
  | cons y ys ih =>
    obtain ⟨hy, hys⟩ := List.pairwise_cons.1 h
    rw [put]
    split
    · rename_i hxy
      have hnew := find?_eq_none_iff.1 (h.find?_eq_none_of_lt hxy)
      rw [if_neg hnew, List.length_cons]
    · rename_i hxy
      split
      · rename_i hyx
        have hne : key x ≠ key y := fun heq => Std.lt_irrefl (heq ▸ hyx)
        rw [List.length_cons, ih hys, List.length_cons]
        by_cases hmem : key x ∈ ys.map key
        · rw [if_pos hmem, if_pos (by rw [List.map_cons]; exact List.mem_cons_of_mem _ hmem)]
        · rw [if_neg hmem, if_neg (by simpa [hne] using hmem)]
      · rename_i hyx
        have heq : key x = key y := Std.le_antisymm (Std.not_lt.1 hyx) (Std.not_lt.1 hxy)
        rw [if_pos (by simp [heq]), List.length_cons, List.length_cons]

/-- The keys of the table of a list are those of the list. -/
theorem mem_keys_ofList {k : κ} {entries : List α} :
    k ∈ (ofList key entries).map key ↔ k ∈ entries.map key := by
  rw [← not_iff_not, ← find?_eq_none_iff, find?_ofList, List.findRev?_eq_find?_reverse]
  simp [List.find?_eq_none]

/-- The table of a list has one entry for each entry of the list just when no key occurs twice. -/
theorem length_ofList_eq_iff {entries : List α} :
    (ofList key entries).length = entries.length ↔ (entries.map key).Nodup := by
  have hle : ∀ l : List α, (ofList key l).length ≤ l.length := by
    intro l
    induction l using List.reverseRecOn with
    | nil => exact Nat.le_refl 0
    | append_singleton xs x ih =>
      rw [ofList_append_singleton, length_put (ascending_ofList key xs), List.length_append,
        List.length_singleton]
      split <;> omega
  induction entries using List.reverseRecOn with
  | nil => simp [ofList, putAll]
  | append_singleton xs x ih =>
    have hxs := hle xs
    rw [ofList_append_singleton, length_put (ascending_ofList key xs), List.length_append,
      List.length_singleton, List.map_append, List.nodup_append]
    by_cases hmem : key x ∈ xs.map key
    · rw [if_pos (mem_keys_ofList.2 hmem)]
      constructor
      · intro hlen
        omega
      · rintro ⟨-, -, hdisjoint⟩
        exact absurd rfl (hdisjoint (key x) hmem (key x) (by simp))
    · rw [if_neg (fun h => hmem (mem_keys_ofList.1 h))]
      constructor
      · intro hlen
        refine ⟨ih.1 (by omega), by simp, fun k hk l hl => ?_⟩
        rw [List.map_singleton, List.mem_singleton] at hl
        exact fun heq => hmem (hl ▸ heq ▸ hk)
      · rintro ⟨hnodup, -, -⟩
        rw [ih.2 hnodup]

omit [DecidableEq κ] in
/-- An entry whose key is new is set in beside the others. -/
theorem put_perm {x : α} {table : List α} (h : key x ∉ table.map key) :
    (put key x table).Perm (x :: table) := by
  induction table with
  | nil => exact .refl _
  | cons y ys ih =>
    rw [List.map_cons, List.mem_cons, not_or] at h
    rw [put]
    split
    · exact .refl _
    · rename_i hxy
      split
      · exact ((ih h.2).cons y).trans (.swap x y ys)
      · rename_i hyx
        exact absurd (Std.le_antisymm (Std.not_lt.1 hyx) (Std.not_lt.1 hxy)) h.1

/-- The table of a list in which no key occurs twice holds just the entries of the list. -/
theorem ofList_perm {entries : List α} (h : (entries.map key).Nodup) :
    (ofList key entries).Perm entries := by
  induction entries using List.reverseRecOn with
  | nil => exact .refl _
  | append_singleton xs x ih =>
    rw [List.map_append, List.nodup_append] at h
    obtain ⟨hxs, -, hdisjoint⟩ := h
    have hnew : key x ∉ (ofList key xs).map key := by
      intro hmem
      exact hdisjoint (key x) (mem_keys_ofList.1 hmem) (key x) (by simp) rfl
    rw [ofList_append_singleton]
    exact (put_perm hnew).trans (((ih hxs).cons x).trans (List.perm_append_singleton x xs).symm)

end NavPolicy.Table
