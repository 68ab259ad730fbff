import NavPolicy.Proofs.Json.RoundTrip
import NavPolicy.Proofs.Table
import NavPolicy.Store.Cell

/-!
# Cells of a store

What is written under a key is found under it, and nothing changes under other keys.  The cells have
keys of their own, and the text of a rule list, a lock or a URL is read as what was written.
-/

namespace NavPolicy

open Json (ofJson_toJson isPlain_toJson isPlain_record)

/-! ## Texts under keys -/

namespace Store

variable (s : Store)

/-- A text is found under the key it was set under, and other keys are left alone. -/
theorem get?_set (key text k : String) :
    (s.set key text).get? k = if k = key then some text else s.get? k := by
  rw [get?, set, Table.find?_put]
  by_cases h : k = key
  · rw [if_pos h.symm, if_pos h]
    rfl
  · rw [if_neg (Ne.symm h), if_neg h]
    rfl

/-- Nothing is found under a key that was erased, and other keys are left alone. -/
theorem get?_erase (key k : String) :
    (s.erase key).get? k = if k = key then none else s.get? k := by
  rw [get?, erase, Table.find?_drop]
  by_cases h : k = key
  · rw [if_pos h.symm, if_pos h]
    rfl
  · rw [if_neg (Ne.symm h), if_neg h]
    rfl

end Store

/-! ## Rules and locks as JSON -/

namespace Json.Record

/-- What comes after a value that was had is done with the value. -/
theorem ok_bind {α β : Type} (x : α) (f : α → Except Error β) : (Except.ok x >>= f) = f x := rfl

variable {α : Type} [Persisted α] [Persisted.Lawful α]

/-- A field that was kept is read as it was kept. -/
theorem required_of_get? {r : Record} {name : String} {x : α} (h : r.get? name = some (toJson x)) :
    r.required name = .ok x := by
  rw [required, h]
  exact ofJson_toJson x

/-- A field that was kept is read as it was kept, also where it may be absent. -/
theorem optional_of_get? {r : Record} {name : String} {x default : α}
    (h : r.get? name = some (toJson x)) : r.optional name default = .ok x := by
  rw [optional, h]
  exact ofJson_toJson x

end Json.Record

open Json.Record (ok_bind ofValue_record required_of_get? optional_of_get?)

instance : Json.Persisted.Lawful BlockRule where
  isPlain_toJson r := by
    refine isPlain_record fun f hf => ?_
    rcases List.mem_pair.1 hf with rfl | rfl
    · exact isPlain_toJson r.id
    · exact isPlain_toJson r.pattern
  ofJson_toJson r := by
    show (Json.Record.ofValue _ (.record _) >>= _) = _
    rw [ofValue_record (by simp) (by simp), ok_bind, required_of_get? (x := r.id) rfl, ok_bind,
      required_of_get? (x := r.pattern) rfl, ok_bind]
    rfl

instance : Json.Persisted.Lawful Destination where
  isPlain_toJson d := by
    refine isPlain_record fun f hf => ?_
    cases d with
    | mk html url =>
      cases html <;> cases url <;> simp at hf
      · exact hf ▸ isPlain_toJson _
      · exact hf ▸ isPlain_toJson _
      · rcases hf with rfl | rfl <;> exact isPlain_toJson _
  ofJson_toJson d := by
    show (Json.Record.ofValue _ (.record _) >>= _) = _
    cases d with
    | mk html url =>
      rw [ofValue_record]
      · cases html <;> cases url <;> rfl
      · cases html <;> cases url <;> simp
      · cases html <;> cases url <;> simp

instance : Json.Persisted.Lawful RedirectRule where
  isPlain_toJson r := by
    refine isPlain_record fun f hf => ?_
    simp only [List.mem_cons, List.not_mem_nil, or_false] at hf
    rcases hf with rfl | rfl | rfl
    · exact isPlain_toJson r.pattern
    · exact isPlain_toJson r.own
    · exact isPlain_toJson r.fallback
  ofJson_toJson r := by
    show (Json.Record.ofValue _ (.record _) >>= _) = _
    rw [ofValue_record (by simp) (by simp), ok_bind, required_of_get? (x := r.pattern) rfl,
      ok_bind, required_of_get? (x := r.own) rfl, ok_bind, required_of_get? (x := r.fallback) rfl,
      ok_bind]
    rfl

instance : Json.Persisted.Lawful LockStatus where
  isPlain_toJson s := isPlain_toJson s.name
  ofJson_toJson s := by cases s <;> rfl

instance : Json.Persisted.Lawful AccessLock where
  isPlain_toJson l := by
    refine isPlain_record fun f hf => ?_
    rcases List.mem_pair.1 hf with rfl | rfl
    · exact isPlain_toJson l.status
    · exact isPlain_toJson l.digest
  ofJson_toJson l := by
    show (Json.Record.ofValue _ (.record _) >>= _) = _
    rw [ofValue_record (by simp) (by simp), ok_bind, required_of_get? (x := l.status) rfl, ok_bind,
      optional_of_get? (x := l.digest) rfl, ok_bind]
    rfl

/-! ## Cells -/

namespace Cell

/-- No two cells have the same key. -/
theorem key_injective : Function.Injective key := by
  intro c d h
  cases c <;> cases d <;> first | rfl | exact absurd h (by decide)

instance : Json.Persisted.Lawful (Content policyUrl) :=
  inferInstanceAs (Json.Persisted.Lawful String)

instance : Json.Persisted.Lawful (Content blockRules) :=
  inferInstanceAs (Json.Persisted.Lawful (List BlockRule))

instance : Json.Persisted.Lawful (Content redirectRules) :=
  inferInstanceAs (Json.Persisted.Lawful (List RedirectRule))

instance : Json.Persisted.Lawful (Content accessLock) :=
  inferInstanceAs (Json.Persisted.Lawful AccessLock)

/-- A cell gives the value that its text is read as. -/
theorem decode_of_read {c : Cell} {text : String} {x : c.Content} (h : Json.read text = .ok x) :
    c.decode (some text) = .ok (some x) := by
  rw [decode, h]

/-- The text under which a value is kept is read as the value. -/
theorem decode_encode (c : Cell) [Json.Persisted.Lawful c.Content] (x : c.Content) :
    c.decode (some (c.encode x)) = .ok (some x) :=
  decode_of_read (Json.read_write x)

end Cell

end NavPolicy
