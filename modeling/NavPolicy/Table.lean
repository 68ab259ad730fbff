/-!
# Tables: lists that ascend in a key

A table is a list whose entries stand in strictly ascending order of a key, so that no key occurs
twice and two tables with the same entries are the same list.  Rules are kept in order of their
number this way, and stored texts in order of their name.

## Operations

* `Table.put`     — the table with an entry set in at the place of its key,
* `Table.ofList`  — the table of a list in which of two entries with one key the later counts,
* `Table.find?`   — the entry under a key,
* `Table.drop`    — the table without the entry under a key.
-/

namespace NavPolicy.Table

variable {α κ : Type} [LT κ] [DecidableLT κ] [DecidableEq κ]

/-- Sets `x` in at the place of its key, where it takes the place of an entry with the same key. -/
def put (key : α → κ) (x : α) : List α → List α
  | [] => [x]
  | y :: ys =>
    if key x < key y then x :: y :: ys
    else if key y < key x then y :: put key x ys
    else x :: ys

/-- Sets in the entries of a list one after the other, so that the last of each key stays. -/
def putAll (key : α → κ) (entries table : List α) : List α :=
  entries.foldl (fun t x => put key x t) table

/-- The table of a list: of each key the last entry. -/
def ofList (key : α → κ) (entries : List α) : List α := putAll key entries []

/-- The entry under a key. -/
def find? (key : α → κ) (k : κ) (table : List α) : Option α :=
  table.find? fun x => key x = k

/-- The table without the entry under a key. -/
def drop (key : α → κ) (k : κ) (table : List α) : List α :=
  table.filter fun x => key x ≠ k

/-- Every key stands before the keys that follow it. -/
def Ascending (key : α → κ) (table : List α) : Prop :=
  table.Pairwise fun x y => key x < key y

/-! ## What an entry that is set in leaves true -/

omit [DecidableEq κ] in
theorem eq_or_mem_of_mem_put {key : α → κ} {x z : α} {table : List α} (h : z ∈ put key x table) :
    z = x ∨ z ∈ table := by
  induction table with
  | nil => simpa [put] using h
  | cons y ys ih =>
    simp only [put] at h
    split at h
    · simpa using h
    · split at h
      · rcases List.mem_cons.1 h with rfl | h
        · simp
        · rcases ih h with rfl | h <;> simp_all
      · rcases List.mem_cons.1 h with rfl | h <;> simp_all

variable [LE κ] [Std.IsLinearOrder κ] [Std.LawfulOrderLT κ]

omit [DecidableEq κ] in
theorem ascending_put {key : α → κ} (x : α) {table : List α} (h : Ascending key table) :
    Ascending key (put key x table) := by
  induction table with
  | nil => simp [put, Ascending]
  | cons y ys ih =>
    obtain ⟨hy, hys⟩ := List.pairwise_cons.1 h
    simp only [put]
    split
    · rename_i hxy
      refine List.pairwise_cons.2 ⟨fun z hz => ?_, h⟩
      rcases List.mem_cons.1 hz with rfl | hz
      · exact hxy
      · exact Std.lt_trans hxy (hy z hz)
    · split
      · rename_i hyx
        refine List.pairwise_cons.2 ⟨fun z hz => ?_, ih hys⟩
        rcases eq_or_mem_of_mem_put hz with rfl | hz
        · exact hyx
        · exact hy z hz
      · rename_i hxy hyx
        have heq : key x = key y := Std.le_antisymm (Std.not_lt.1 hyx) (Std.not_lt.1 hxy)
        exact List.pairwise_cons.2 ⟨fun z hz => heq ▸ hy z hz, hys⟩

omit [DecidableEq κ] in
theorem ascending_putAll {key : α → κ} (entries : List α) {table : List α}
    (h : Ascending key table) : Ascending key (putAll key entries table) := by
  induction entries generalizing table with
  | nil => exact h
  | cons x xs ih => exact ih (ascending_put x h)

omit [DecidableEq κ] in
theorem ascending_ofList (key : α → κ) (entries : List α) : Ascending key (ofList key entries) :=
  ascending_putAll entries List.Pairwise.nil

omit [DecidableLT κ] [LE κ] [Std.IsLinearOrder κ] [Std.LawfulOrderLT κ] in
theorem ascending_drop {key : α → κ} (k : κ) {table : List α} (h : Ascending key table) :
    Ascending key (drop key k table) :=
  h.filter _

end NavPolicy.Table
