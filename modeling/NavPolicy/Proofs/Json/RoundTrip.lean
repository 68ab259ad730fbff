import NavPolicy.Json.Persisted
import NavPolicy.Proofs.Json.Layout

/-!
# Written values are read back

A plain value, one whose strings are texts and whose numbers are integers, is what its compact text and
its indented text mean (`parse?_compact`, `parse?_indented`).  Both texts spell the tokens of the value,
and the reader goes from these tokens to the value, whatever frames are open around it and whatever
follows (`run_tokens`).  It goes through the value by its structure, with the members of arrays and
objects after the first one taken together with the comma before them.

## Types

A type is `Lawful` if each of its members is kept as a plain value that is read as the member.  The text
of a member is then read as the member (`read_write`).
-/

namespace NavPolicy.Json

/-! ## Tokens of members -/

/-- Members after the first follow a separator each. -/
theorem separated_cons {α : Type} (sep x : List α) (xs : List (List α)) :
    separated sep (x :: xs) = x ++ xs.flatMap (sep ++ ·) := by
  induction xs generalizing x with
  | nil => rw [separated, List.flatMap_nil, List.append_nil]
  | cons y ys ih =>
    rw [separated, ih, List.flatMap_cons]
    simp only [List.append_assoc]

/-- The tokens of items after the first one, a comma before each. -/
def laterItems (vs : List Value) : List Token := (itemTokens vs).flatMap ([.comma] ++ ·)

/-- The tokens of fields after the first one, a comma before each. -/
def laterFields (fields : List (Text × Value)) : List Token :=
  (fieldTokens fields).flatMap ([.comma] ++ ·)

theorem laterItems_cons (v : Value) (vs : List Value) :
    laterItems (v :: vs) = .comma :: (v.tokens ++ laterItems vs) := rfl

theorem laterFields_cons (name : Text) (v : Value) (fields : List (Text × Value)) :
    laterFields ((name, v) :: fields) =
      .comma :: .string name :: .colon :: (v.tokens ++ laterFields fields) := rfl

/-- An array with items has the first one's tokens, those of the others, and brackets. -/
theorem tokens_array_cons (v : Value) (vs : List Value) :
    (Value.array (v :: vs)).tokens =
      .openArray :: (v.tokens ++ (laterItems vs ++ [.closeArray])) := by
  rw [Value.tokens, itemTokens, separated_cons, List.append_assoc]
  rfl

/-- An object with fields has the first one's tokens, those of the others, and braces. -/
theorem tokens_object_cons (name : Text) (v : Value) (fields : List (Text × Value)) :
    (Value.object ((name, v) :: fields)).tokens =
      .openObject :: .string name :: .colon ::
        (v.tokens ++ (laterFields fields ++ [.closeObject])) := by
  rw [Value.tokens, fieldTokens, separated_cons, List.append_assoc]
  rfl

/-! ## The value of tokens -/

/-- The first item of an array is read as any value is. -/
theorem run_firstItem (v : Value) (frames : List Frame) (ts : List Token) :
    (State.firstItem frames).run (v.tokens ++ ts) =
      (State.value (.items [] :: frames)).run (v.tokens ++ ts) := by
  cases v <;> rfl

mutual

/-- The reader goes from the tokens of a value to the value, in any frames. -/
theorem run_tokens : ∀ (v : Value) (frames : List Frame) (ts : List Token),
    (State.value frames).run (v.tokens ++ ts) = (State.after v frames).run ts
  | .null, _, _ => rfl
  | .bool _, _, _ => rfl
  | .number _, _, _ => rfl
  | .string _, _, _ => rfl
  | .array [], _, _ => rfl
  | .array (v :: vs), frames, ts => by
    rw [tokens_array_cons, List.cons_append, List.append_assoc, List.append_assoc]
    show (State.firstItem frames).run _ = _
    rw [run_firstItem, run_tokens v, List.singleton_append, run_laterItems vs]
    rfl
  | .object [], _, _ => rfl
  | .object ((name, v) :: fields), frames, ts => by
    rw [tokens_object_cons, List.cons_append, List.cons_append, List.cons_append, List.append_assoc,
      List.append_assoc]
    show (State.value (.field [] name :: frames)).run _ = _
    rw [run_tokens v, List.singleton_append, run_laterFields fields]
    rfl

/-- The items that follow one are added to those before it, up to the closing bracket. -/
theorem run_laterItems : ∀ (vs done : List Value) (v : Value) (frames : List Frame)
    (ts : List Token),
    (State.after v (.items done :: frames)).run (laterItems vs ++ .closeArray :: ts) =
      (State.after (.array ((v :: done).reverse ++ vs)) frames).run ts
  | [], done, v, frames, ts => by
    rw [List.append_nil]
    rfl
  | w :: vs, done, v, frames, ts => by
    rw [laterItems_cons, List.cons_append, List.append_assoc]
    show (State.value (.items (v :: done) :: frames)).run _ = _
    rw [run_tokens w, run_laterItems vs (v :: done) w, List.reverse_cons, List.append_assoc,
      List.singleton_append]

/-- The fields that follow one are added to those before it, up to the closing brace. -/
theorem run_laterFields : ∀ (fields done : List (Text × Value)) (name : Text) (v : Value)
    (frames : List Frame) (ts : List Token),
    (State.after v (.field done name :: frames)).run (laterFields fields ++ .closeObject :: ts) =
      (State.after (.object (((name, v) :: done).reverse ++ fields)) frames).run ts
  | [], done, name, v, frames, ts => by
    rw [List.append_nil]
    rfl
  | (next, w) :: fields, done, name, v, frames, ts => by
    rw [laterFields_cons, List.cons_append, List.cons_append, List.cons_append, List.append_assoc]
    show (State.value (.field ((name, v) :: done) next :: frames)).run _ = _
    rw [run_tokens w, run_laterFields fields ((name, v) :: done) next w, List.reverse_cons,
      List.append_assoc, List.singleton_append]

end

/-- The tokens of a value mean the value. -/
theorem ofTokens?_tokens (v : Value) : ofTokens? v.tokens = some v := by
  have hrun := run_tokens v [] []
  rw [List.append_nil] at hrun
  rw [ofTokens?, hrun]
  rfl

/-- A text that spells the tokens of a value means the value. -/
theorem parse?_of_spells {cs : List Char} {v : Value} (h : Spells cs v.tokens) :
    parse? (String.ofList cs) = some v := by
  have hlex : lex cs = some v.tokens := by
    -- nothing follows the text, so nothing can go on with its last token
    have hends : Ends [] := fun c hc => absurd hc (by simp)
    have hnil : lex [] = some [] := by rw [lex]
    have hcs := h [] [] hends hnil
    rwa [List.append_nil, List.append_nil] at hcs
  rw [parse?, String.toList_ofList, hlex]
  exact ofTokens?_tokens v

/-- A plain value is what its compact text means. -/
theorem parse?_compact {v : Value} (h : v.IsPlain) : parse? v.compact = some v :=
  parse?_of_spells (spells_compactChars v h)

/-- A plain value is what its indented text means. -/
theorem parse?_indented {v : Value} (h : v.IsPlain) : parse? v.indented = some v :=
  parse?_of_spells (spells_indentedChars v 0 h)

/-! ## Plain values -/

theorem isPlain_ofString (s : String) : (Value.ofString s).IsPlain := by
  intro t ht
  rw [List.mem_singleton.1 ht]
  trivial

theorem isPlain_ofNat (n : Nat) : (Value.ofNat n).IsPlain := by
  intro t ht
  rw [List.mem_singleton.1 ht]
  trivial

theorem isPlain_null : Value.null.IsPlain := by
  intro t ht
  rw [List.mem_singleton.1 ht]
  trivial

/-- An array of plain values is plain. -/
theorem isPlain_array {vs : List Value} (h : ∀ v ∈ vs, v.IsPlain) : (Value.array vs).IsPlain := by
  have hlater : ∀ ws : List Value, (∀ w ∈ ws, w.IsPlain) → ∀ t ∈ laterItems ws, t.IsPlain := by
    intro ws hws
    induction ws with
    | nil => exact fun t ht => absurd ht List.not_mem_nil
    | cons w ws ih =>
      rw [List.forall_mem_cons] at hws
      rw [laterItems_cons, List.forall_mem_cons, List.forall_mem_append]
      exact ⟨trivial, hws.1, ih hws.2⟩
  rw [Value.IsPlain]
  cases vs with
  | nil => simp [Value.tokens, itemTokens, separated, Token.IsPlain]
  | cons v vs =>
    rw [List.forall_mem_cons] at h
    rw [tokens_array_cons, List.forall_mem_cons, List.forall_mem_append, List.forall_mem_append,
      List.forall_mem_singleton]
    exact ⟨trivial, h.1, hlater vs h.2, trivial⟩

/-- A record of plain values is plain. -/
theorem isPlain_record {fields : List (String × Value)} (h : ∀ f ∈ fields, f.2.IsPlain) :
    (Value.record fields).IsPlain := by
  have hlater : ∀ fs : List (String × Value), (∀ f ∈ fs, f.2.IsPlain) →
      ∀ t ∈ laterFields (fs.map fun f => (some f.1, f.2)), t.IsPlain := by
    intro fs hfs
    induction fs with
    | nil => exact fun t ht => absurd ht List.not_mem_nil
    | cons f fs ih =>
      rw [List.forall_mem_cons] at hfs
      rw [List.map_cons, laterFields_cons, List.forall_mem_cons, List.forall_mem_cons,
        List.forall_mem_cons, List.forall_mem_append]
      exact ⟨trivial, trivial, trivial, hfs.1, ih hfs.2⟩
  rw [Value.IsPlain, Value.record]
  cases fields with
  | nil => simp [Value.tokens, fieldTokens, separated, Token.IsPlain]
  | cons f fields =>
    rw [List.forall_mem_cons] at h
    rw [List.map_cons, tokens_object_cons, List.forall_mem_cons, List.forall_mem_cons,
      List.forall_mem_cons, List.forall_mem_append, List.forall_mem_append,
      List.forall_mem_singleton]
    exact ⟨trivial, trivial, trivial, h.1, hlater fields h.2, trivial⟩

/-! ## Lawful types -/

/-- A type whose members are kept as plain values that are read as the members. -/
class Persisted.Lawful (α : Type) [Persisted α] : Prop where
  isPlain_toJson : ∀ x : α, (toJson x).IsPlain
  ofJson_toJson : ∀ x : α, ofJson (toJson x) = .ok x

export Persisted.Lawful (isPlain_toJson ofJson_toJson)

/-- The text of a member is read as the member. -/
theorem read_write {α : Type} [Persisted α] [Persisted.Lawful α] (x : α) :
    read (write x) = .ok x := by
  rw [read, write, parse?_compact (isPlain_toJson x)]
  exact ofJson_toJson x

/-- The indented text of a member is read as the member, too. -/
theorem read_indented {α : Type} [Persisted α] [Persisted.Lawful α] (x : α) :
    read (toJson x).indented = .ok x := by
  rw [read, parse?_indented (isPlain_toJson x)]
  exact ofJson_toJson x

instance : Persisted.Lawful String where
  isPlain_toJson := isPlain_ofString
  ofJson_toJson _ := rfl

instance : Persisted.Lawful UInt32 where
  isPlain_toJson n := isPlain_ofNat n.toNat
  ofJson_toJson n := by
    have hlt : n.toNat < UInt32.size := n.toNat_lt
    simp only [ofJson, toJson, Value.ofNat, hlt, if_true]
    rw [UInt32.ofNat_toNat]

instance {α : Type} [Persisted α] [Persisted.Lawful α] : Persisted.Lawful (List α) where
  isPlain_toJson xs := by
    refine isPlain_array fun v hv => ?_
    obtain ⟨x, -, rfl⟩ := List.mem_map.1 hv
    exact isPlain_toJson x
  ofJson_toJson xs := by
    show (xs.map toJson).mapM ofJson = .ok xs
    induction xs with
    | nil => rfl
    | cons x xs ih =>
      rw [List.map_cons, List.mapM_cons, ofJson_toJson, ih]
      rfl

/-- A text or null is read as it was kept. -/
instance : Persisted.Lawful (Option String) where
  isPlain_toJson
    | some s => isPlain_ofString s
    | none => isPlain_null
  ofJson_toJson
    | some _ => rfl
    | none => rfl

/-! ## Records -/

/-- The fields of a record are taken as they are, if each is declared and none occurs twice. -/
theorem Record.ofValue_record {names : List String} {fields : List (String × Value)}
    (hdeclared : ∀ f ∈ fields, f.1 ∈ names) (hnodup : (fields.map Prod.fst).Nodup) :
    Record.ofValue names (.record fields) = .ok ⟨false, fields⟩ := by
  have hfields : Record.ofFields names (fields.map fun f => (some f.1, f.2)) = .ok fields := by
    induction fields with
    | nil => rfl
    | cons f fields ih =>
      rw [List.forall_mem_cons] at hdeclared
      rw [List.map_cons, List.nodup_cons] at hnodup
      have hfresh : (fields.any fun g => g.1 = f.1) = false := by
        rw [List.any_eq_false]
        intro g hg heq
        exact hnodup.1 (List.mem_map.2 ⟨g, hg, by simpa using heq⟩)
      rw [List.map_cons, Record.ofFields, ih hdeclared.2 hnodup.2]
      simp only [hdeclared.1, hfresh, not_true, if_false, Bool.false_eq_true]
  show (Record.ofFields names (fields.map fun f => (some f.1, f.2))).map _ = _
  rw [hfields]
  rfl

end NavPolicy.Json
