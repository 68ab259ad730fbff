import NavPolicy.Json.Writer
import NavPolicy.Proofs.Json.Token

/-!
# Layouts of values

A text spells tokens if they are read off it, whatever follows that cannot be taken for a part of it
(`Spells`).  Texts that spell tokens may be set side by side, with blanks between them, as long as a word
or a number is not followed by another one.  Both layouts of a value are put together in that way, so both
spell the tokens of the value (`spells_compactChars`, `spells_indentedChars`).
-/

namespace NavPolicy.Json

/-- Whether a text is read as these tokens, in front of anything that cannot be taken for a part of it. -/
def Spells (cs : List Char) (ts : List Token) : Prop :=
  ∀ (rest : List Char) (us : List Token), Ends rest → lex rest = some us →
    lex (cs ++ rest) = some (ts ++ us)

/-! ## What a text starts with -/

/-- A mark goes on with no word and no number. -/
theorem ends_of_mark {c : Char} {t : Token} (h : mark? c = some t) (rest : List Char) :
    Ends (c :: rest) := by
  intro d hd
  obtain rfl := Option.some.inj hd
  unfold mark? at h
  split_ifs at h <;>
    (subst_vars
     decide)

/-- A blank goes on with no word and no number. -/
theorem ends_of_space {c : Char} (h : isSpace c = true) (rest : List Char) : Ends (c :: rest) := by
  intro d hd
  obtain rfl := Option.some.inj hd
  simp only [isSpace, Bool.or_eq_true, decide_eq_true_eq] at h
  rcases h with ((rfl | rfl) | rfl) | rfl <;> decide

/-- What a text goes on with depends on its start. -/
theorem Ends.append {cs rest : List Char} (hcs : Ends cs) (hrest : Ends rest) :
    Ends (cs ++ rest) := by
  cases cs with
  | nil => exact hrest
  | cons c cs => exact hcs

/-- A blank is not read. -/
theorem lex_space {c : Char} (h : isSpace c = true) (rest : List Char) :
    lex (c :: rest) = lex rest := by
  rw [lex, h]
  rfl

/-! ## Texts side by side -/

section Spelling

variable {cs ds : List Char} {ts us : List Token}

theorem spells_nil : Spells [] [] := fun _ _ _ h => h

/-- A plain token in its written form spells the token. -/
theorem spells_write {t : Token} (ht : t.IsPlain) : Spells t.write [t] := by
  intro rest us hends h
  rw [lex_write ht hends, h]
  rfl

namespace Spells

/-- A mark may be set in front. -/
theorem mark {c : Char} {t : Token} (hmark : mark? c = some t) (h : Spells cs ts) :
    Spells (c :: cs) (t :: ts) := by
  intro rest us hends hrest
  rw [List.cons_append, lex_mark hmark, h rest us hends hrest]
  rfl

/-- Blanks may be set in front. -/
theorem spaces (blanks : List Char) (hblanks : ∀ c ∈ blanks, isSpace c = true) (h : Spells cs ts) :
    Spells (blanks ++ cs) ts := by
  induction blanks with
  | nil => exact h
  | cons c blanks ih =>
    rw [List.forall_mem_cons] at hblanks
    intro rest us hends hrest
    rw [List.cons_append, List.cons_append, lex_space hblanks.1]
    exact ih hblanks.2 rest us hends hrest

/-- A text may be set behind another one with whose end it does not go on. -/
theorem append (hcs : Spells cs ts) (hds : Spells ds us) (hends : Ends ds) :
    Spells (cs ++ ds) (ts ++ us) := by
  intro rest later hrest h
  rw [List.append_assoc, List.append_assoc]
  exact hcs _ _ (hends.append hrest) (hds rest later hrest h)

end Spells

end Spelling

/-! ## Members between brackets -/

section Members

variable {members : List (List Char)} {tokens : List (List Token)}

/-- Members with commas and blanks between them spell their tokens with commas between them. -/
theorem spells_separated (blanks : List Char) (hblanks : ∀ c ∈ blanks, isSpace c = true)
    (h : List.Forall₂ Spells members tokens) :
    Spells (separated (',' :: blanks) members) (separated [.comma] tokens) := by
  induction h with
  | nil => exact spells_nil
  | @cons member ts members tokens hmember hrest ih =>
    cases hrest with
    | nil => exact hmember
    | cons =>
      rw [separated, separated, List.append_assoc, List.append_assoc]
      exact hmember.append (.mark rfl (.spaces blanks hblanks ih)) (ends_of_mark rfl _)

/-- Members between brackets spell the brackets around their tokens. -/
theorem spells_enclosed {opening closing : Char} {first last : Token}
    (hopening : mark? opening = some first) (hclosing : mark? closing = some last)
    (h : List.Forall₂ Spells members tokens) :
    Spells (opening :: (separated [','] members ++ [closing]))
      (first :: (separated [.comma] tokens ++ [last])) := by
  have hmembers : Spells (separated [','] members) (separated [.comma] tokens) :=
    spells_separated [] (by simp) h
  exact .mark hopening (hmembers.append (.mark hclosing spells_nil) (ends_of_mark hclosing _))

/-- A new line consists of blanks. -/
theorem isSpace_of_mem_newLine {depth : Nat} {c : Char} (h : c ∈ newLine depth) :
    isSpace c = true := by
  rcases List.mem_cons.1 h with rfl | h
  · rfl
  · rw [List.eq_of_mem_replicate h]
    rfl

/-- Members on lines of their own between brackets spell the brackets around their tokens. -/
theorem spells_bracketed {opening closing : Char} {first last : Token}
    (hopening : mark? opening = some first) (hclosing : mark? closing = some last) (depth : Nat)
    (h : List.Forall₂ Spells members tokens) :
    Spells (bracketed opening closing depth members)
      (first :: (separated [.comma] tokens ++ [last])) := by
  cases h with
  | nil => exact .mark hopening (.mark hclosing spells_nil)
  | @cons member ts members tokens hmember hrest =>
    have hmembers := spells_separated (newLine (depth + 1))
      (fun _ => isSpace_of_mem_newLine) (.cons hmember hrest)
    rw [bracketed, List.append_assoc, List.append_assoc]
    refine .mark hopening (.spaces _ (fun _ => isSpace_of_mem_newLine) ?_)
    refine hmembers.append ?_ (ends_of_space (c := '\n') rfl _)
    exact .spaces _ (fun _ => isSpace_of_mem_newLine) (.mark hclosing spells_nil)
    · exact fun h => nomatch h

end Members

/-! ## Both layouts -/

/-- Whether every token of the value is plain. -/
def Value.IsPlain (v : Value) : Prop := ∀ t ∈ v.tokens, t.IsPlain

/-- What stands in a member stands in the members with separators between them. -/
theorem mem_separated {α : Type} {sep x : List α} {xs : List (List α)} {a : α} (hx : x ∈ xs)
    (ha : a ∈ x) : a ∈ separated sep xs := by
  induction xs with
  | nil => exact absurd hx List.not_mem_nil
  | cons y ys ih =>
    cases ys with
    | nil => exact List.mem_singleton.1 hx ▸ ha
    | cons z zs =>
      rw [separated, List.mem_append, List.mem_append]
      rcases List.mem_cons.1 hx with rfl | hx
      · exact Or.inl (Or.inl ha)
      · exact Or.inr (ih hx)

/-- The members of an array or an object with plain tokens have plain tokens. -/
theorem isPlain_members {first last : Token} {members : List (List Token)}
    (h : ∀ t ∈ first :: (separated [.comma] members ++ [last]), t.IsPlain) :
    ∀ ts ∈ members, ∀ t ∈ ts, t.IsPlain :=
  fun _ hts t ht => h t (List.mem_cons_of_mem _ (List.mem_append_left _ (mem_separated hts ht)))

mutual

/-- The indented text of a plain value spells its tokens. -/
theorem spells_indentedChars : ∀ (v : Value) (depth : Nat), v.IsPlain →
    Spells (v.indentedChars depth) v.tokens
  | .null, _, h => spells_write (h _ (List.mem_singleton.2 rfl))
  | .bool _, _, h => spells_write (h _ (List.mem_singleton.2 rfl))
  | .number _, _, h => spells_write (h _ (List.mem_singleton.2 rfl))
  | .string _, _, h => spells_write (h _ (List.mem_singleton.2 rfl))
  | .array items, depth, h => by
    rw [Value.indentedChars, Value.tokens]
    exact spells_bracketed rfl rfl depth (spells_itemLines items (depth + 1) (isPlain_members h))
  | .object fields, depth, h => by
    rw [Value.indentedChars, Value.tokens]
    exact spells_bracketed rfl rfl depth (spells_fieldLines fields (depth + 1) (isPlain_members h))

/-- The lines of plain items spell the items. -/
theorem spells_itemLines : ∀ (vs : List Value) (depth : Nat),
    (∀ ts ∈ itemTokens vs, ∀ t ∈ ts, t.IsPlain) →
    List.Forall₂ Spells (itemLines depth vs) (itemTokens vs)
  | [], _, _ => .nil
  | v :: vs, depth, h => by
    obtain ⟨hfirst, hlater⟩ := List.forall_mem_cons.1 h
    exact .cons (spells_indentedChars v depth hfirst) (spells_itemLines vs depth hlater)

/-- The lines of plain fields spell the fields. -/
theorem spells_fieldLines : ∀ (fields : List (Text × Value)) (depth : Nat),
    (∀ ts ∈ fieldTokens fields, ∀ t ∈ ts, t.IsPlain) →
    List.Forall₂ Spells (fieldLines depth fields) (fieldTokens fields)
  | [], _, _ => .nil
  | (name, v) :: fields, depth, h => by
    obtain ⟨hfirst, hlater⟩ := List.forall_mem_cons.1 h
    simp only [List.forall_mem_cons] at hfirst
    obtain ⟨hname, -, hvalue⟩ := hfirst
    have hcontent : Spells (' ' :: v.indentedChars depth) v.tokens :=
      .spaces [' '] (List.forall_mem_singleton.2 rfl) (spells_indentedChars v depth hvalue)
    have hfield := (spells_write hname).append (.mark (c := ':') rfl hcontent) (ends_of_mark rfl _)
    exact .cons hfield (spells_fieldLines fields depth hlater)

end

/-- Tokens in their written form, side by side. -/
def writeTokens (ts : List Token) : List Char := ts.flatMap Token.write

theorem spells_writeToken {t : Token} (ht : t.IsPlain) : Spells (writeTokens [t]) [t] := by
  rw [writeTokens, List.flatMap_singleton]
  exact spells_write ht

/-- The written forms of members with commas between them. -/
theorem writeTokens_separated (members : List (List Token)) :
    writeTokens (separated [.comma] members) = separated [','] (members.map writeTokens) := by
  induction members with
  | nil => rfl
  | cons ts members ih =>
    cases members with
    | nil => rfl
    | cons us members =>
      rw [separated, writeTokens, List.flatMap_append, List.flatMap_append, List.map_cons,
        List.map_cons, separated, ← List.map_cons, ← ih]
      rfl

/-- The written forms of members between brackets. -/
theorem writeTokens_enclosed (first last : Token) (members : List (List Token)) :
    writeTokens (first :: (separated [.comma] members ++ [last])) =
      first.write ++ (separated [','] (members.map writeTokens) ++ last.write) := by
  rw [← writeTokens_separated, writeTokens, List.flatMap_cons, List.flatMap_append,
    List.flatMap_singleton]
  rfl

mutual

/-- The compact text of a plain value spells its tokens. -/
theorem spells_compactChars : ∀ v : Value, v.IsPlain → Spells v.compactChars v.tokens
  | .null, h => spells_writeToken (h _ (List.mem_singleton.2 rfl))
  | .bool _, h => spells_writeToken (h _ (List.mem_singleton.2 rfl))
  | .number _, h => spells_writeToken (h _ (List.mem_singleton.2 rfl))
  | .string _, h => spells_writeToken (h _ (List.mem_singleton.2 rfl))
  | .array items, h => by
    rw [Value.compactChars, Value.tokens, ← writeTokens, writeTokens_enclosed]
    exact spells_enclosed rfl rfl (spells_writeItems items (isPlain_members h))
  | .object fields, h => by
    rw [Value.compactChars, Value.tokens, ← writeTokens, writeTokens_enclosed]
    exact spells_enclosed rfl rfl (spells_writeFields fields (isPlain_members h))

/-- The compact texts of plain items spell the items. -/
theorem spells_writeItems : ∀ vs : List Value,
    (∀ ts ∈ itemTokens vs, ∀ t ∈ ts, t.IsPlain) →
    List.Forall₂ Spells ((itemTokens vs).map writeTokens) (itemTokens vs)
  | [], _ => .nil
  | v :: vs, h => by
    obtain ⟨hfirst, hlater⟩ := List.forall_mem_cons.1 h
    exact .cons (spells_compactChars v hfirst) (spells_writeItems vs hlater)

/-- The compact texts of plain fields spell the fields. -/
theorem spells_writeFields : ∀ fields : List (Text × Value),
    (∀ ts ∈ fieldTokens fields, ∀ t ∈ ts, t.IsPlain) →
    List.Forall₂ Spells ((fieldTokens fields).map writeTokens) (fieldTokens fields)
  | [], _ => .nil
  | (name, v) :: fields, h => by
    obtain ⟨hfirst, hlater⟩ := List.forall_mem_cons.1 h
    simp only [List.forall_mem_cons] at hfirst
    obtain ⟨hname, -, hvalue⟩ := hfirst
    have hfield := (spells_write hname).append (.mark (c := ':') rfl (spells_compactChars v hvalue))
      (ends_of_mark rfl _)
    exact .cons hfield (spells_writeFields fields hlater)

end

end NavPolicy.Json
