import NavPolicy.Proofs.Json.RoundTrip
import NavPolicy.Yaml.Token.Lexer

/-!
# Compact JSON read as tokens

A compact JSON text of printable characters is a single line of double-quoted scalars, words and flow
collections.  `Lexer.Yields` says of a part of it that the lexer reads it as certain tokens wherever it stands
before a mark; it holds of scalars and words, and of fields and collections whenever it holds of what they
consist of.  So a whole text is read as its tokens however long and deep it is (`Lexer.run_start_enclosed`).

The token of a key is put in only when the lexer comes to the colon: `Lexer.noted` is where a key may have
started before, and nothing in such a text makes one be required.
-/

namespace NavPolicy.Yaml

/-! ## Printable characters -/

/-- Whether a character is one from the space to the tilde. -/
def IsPrintable (c : Char) : Prop := 0x20 ≤ c.toNat ∧ c.toNat ≤ 0x7E

instance (c : Char) : Decidable (IsPrintable c) := inferInstanceAs (Decidable (_ ∧ _))

instance (cs : List Char) : Decidable (∀ c ∈ cs, IsPrintable c) := List.decidableBAll IsPrintable cs

namespace IsPrintable

variable {c : Char}

/-- A printable character is none that is not. -/
theorem ne (h : IsPrintable c) {d : Char} (hd : ¬ IsPrintable d) : c ≠ d := fun heq => hd (heq ▸ h)

theorem isBreak_eq_false (h : IsPrintable c) : isBreak c = false := by
  simp [isBreak, h.ne (d := '\n') (by decide), h.ne (d := '\u2028') (by decide),
    h.ne (d := '\u2029') (by decide)]

theorem isAllowed_eq_true (h : IsPrintable c) : isAllowed c = true := by
  have hrange : (0x20 ≤ c.toNat && c.toNat ≤ 0x7E) = true := by simpa [IsPrintable] using h
  simp [isAllowed, hrange]

/-- The only gap among printable characters is the space. -/
theorem isGap_eq (h : IsPrintable c) : isGap c = decide (c = ' ') := by
  simp [isGap, h.ne (d := '\t') (by decide)]

/-- A printable character stands for itself in a JSON string, except for the quote and the backslash. -/
theorem escapeChar_eq (h : IsPrintable c) (hquote : c ≠ '"') (hbackslash : c ≠ '\\') :
    Json.escapeChar c = [c] := Json.escapeChar_eq_self h.1 hquote hbackslash

end IsPrintable

/-! ## Double quotes -/

theorem prependText_prependText (cs ds : List Char) (r : Except Error ScalarRead) :
    prependText cs (prependText ds r) = prependText (cs ++ ds) r := by
  cases r with
  | error e => rfl
  | ok r => rw [prependText, prependText, prependText, List.append_assoc]

section DoubleQuotes

variable (line : Nat) {column : Nat} (blanks rest : List Char)

/-- A space is kept for what follows it. -/
theorem readDoubleQuoted_space :
    readDoubleQuoted line column (.text (.blanks blanks)) (' ' :: rest) =
      readDoubleQuoted line (column + 1) (.text (.blanks (blanks ++ [' ']))) rest := by
  rw [readDoubleQuoted, if_pos (by decide), Gap.addBlank]

variable (hcolumn : 0 < column)

include hcolumn

/-- A character that is written with a backslash is read as what the letter after it means. -/
theorem readDoubleQuoted_backslash {letter c : Char} (hletter : escape? letter = some (.char c))
    (hbreak : isBreak letter = false) :
    readDoubleQuoted line column (.text (.blanks blanks)) ('\\' :: letter :: rest) =
      prependText (blanks ++ [c]) (readDoubleQuoted line (column + 2) (.text .none) rest) := by
  have hgap : ¬ isGap '\\' = true := by decide
  have hmark : ¬ isBreak '\\' = true := by decide
  rw [readDoubleQuoted, if_neg hgap, if_neg hmark, if_neg (by simp; omega), if_neg (by decide),
    if_pos rfl, readDoubleQuoted, if_neg (by simp [hbreak]), hletter, ← prependText_prependText]
  rfl

/-- A printable character other than the space is read as it was before it was put in quotes. -/
theorem readDoubleQuoted_escapeChar {c : Char} (hc : IsPrintable c) (hspace : c ≠ ' ') :
    readDoubleQuoted line column (.text (.blanks blanks)) (Json.escapeChar c ++ rest) =
      prependText (blanks ++ [c])
        (readDoubleQuoted line (column + (Json.escapeChar c).length) (.text .none) rest) := by
  by_cases hquote : c = '"'
  · subst hquote
    exact readDoubleQuoted_backslash line blanks rest hcolumn rfl rfl
  by_cases hbackslash : c = '\\'
  · subst hbackslash
    exact readDoubleQuoted_backslash line blanks rest hcolumn rfl rfl
  rw [hc.escapeChar_eq hquote hbackslash, List.singleton_append, readDoubleQuoted, hc.isGap_eq,
    hc.isBreak_eq_false, if_neg (by simpa using hspace), if_neg (by decide),
    if_neg (by simp; omega), if_neg hquote, if_neg hbackslash]
  rfl

/-- The quote ends the text, with the spaces before it. -/
theorem readDoubleQuoted_quote :
    readDoubleQuoted line column (.text (.blanks blanks)) ('"' :: rest) =
      .ok ⟨blanks, ⟨rest, line, column + 1⟩, false⟩ := by
  rw [readDoubleQuoted, if_neg (by decide), if_neg (by decide), if_neg (by simp; omega), if_pos rfl,
    Gap.text]

/-- A text of printable characters is read as it was before it was put in quotes. -/
theorem readDoubleQuoted_escaped {cs : List Char} (h : ∀ c ∈ cs, IsPrintable c) :
    readDoubleQuoted line column (.text (.blanks blanks))
        (cs.flatMap Json.escapeChar ++ '"' :: rest) =
      .ok ⟨blanks ++ cs, ⟨rest, line, column + (cs.flatMap Json.escapeChar).length + 1⟩, false⟩ := by
  induction cs generalizing column blanks with
  | nil =>
    rw [List.flatMap_nil, List.nil_append, readDoubleQuoted_quote line _ _ hcolumn, List.append_nil]
    rfl
  | cons c cs ih =>
    obtain ⟨hc, hcs⟩ := List.forall_mem_cons.1 h
    rw [List.flatMap_cons, List.append_assoc, List.length_append, ← Nat.add_assoc]
    by_cases hspace : c = ' '
    · subst hspace
      have hescape : Json.escapeChar ' ' = [' '] := rfl
      rw [hescape, List.singleton_append, readDoubleQuoted_space,
        ih _ (Nat.succ_pos column) hcs, List.append_assoc]
      rfl
    · rw [readDoubleQuoted_escapeChar line blanks _ hcolumn hc hspace, Gap.none,
        ih [] (Nat.add_pos_left hcolumn _) hcs, prependText, List.append_assoc]
      rfl

end DoubleQuotes

namespace Lexer

/-! ## Flow collections -/

/-- A lexer in the first line of a text, without open block collections. -/
def inLine (cs : List Char) (column : Nat) (tokens : List Token) (keyAllowed : Bool)
    (key : Option PossibleKey) (outerKeys : List (Option PossibleKey)) : Lexer :=
  ⟨⟨cs, 0, column⟩, tokens, tokens.length, -1, [], keyAllowed, key, outerKeys⟩

/-- The possible key after one was noted where this is allowed. -/
def noted (cs : List Char) (column : Nat) (tokens : List Token) (keyAllowed : Bool)
    (key : Option PossibleKey) : Option PossibleKey :=
  if keyAllowed then some ⟨tokens.length, 0, column, cs, false⟩ else key

/-- Whether the possible key may be given up. -/
def IsOptional (key : Option PossibleKey) : Prop := ∀ k ∈ key, k.required = false

theorem isMark_of_ne {m c : Char} (h : c ≠ m) (cs : List Char) : isMark m (c :: cs) = false := by
  match cs with
  | [] => rfl
  | [_] => rfl
  | _ :: _ :: _ => simp [isMark, h]

theorem isOptional_none : IsOptional none := fun _ h => nomatch h

variable {cs : List Char} {column : Nat} {tokens : List Token} {keyAllowed : Bool}
  {key : Option PossibleKey} {outer : List (Option PossibleKey)}

theorem isOptional_noted (h : IsOptional key) :
    IsOptional (noted cs column tokens keyAllowed key) := by
  cases keyAllowed with
  | true =>
    intro k hk
    obtain rfl := Option.some.inj hk
    rfl
  | false => exact h

theorem dropKey_inLine (h : IsOptional key) :
    (inLine cs column tokens keyAllowed key outer).dropKey =
      .ok (inLine cs column tokens keyAllowed none outer) := by
  have hfree : key.any (·.required) = false := by
    cases key with
    | none => rfl
    | some k => exact h k rfl
  rw [dropKey]
  simp only [inLine, hfree]
  rfl

theorem saveKey_inLine (h : IsOptional key) :
    (inLine cs column tokens keyAllowed key outer).saveKey =
      .ok (inLine cs column tokens keyAllowed (noted cs column tokens keyAllowed key) outer) := by
  cases keyAllowed with
  | false => rfl
  | true =>
    have hindent : (inLine cs column tokens true key outer).indent ≠
        (inLine cs column tokens true key outer).cursor.column := by
      simp only [inLine]
      omega
    rw [saveKey, dropKey_inLine h]
    simp only [inLine] at *
    simp [noted, hindent]

/-- Whether a token starts with a character wherever it stands: it is no blank and starts no comment. -/
def startsToken (c : Char) : Bool := !isGap c && !isBreak c && c ≠ '#' && c ≠ '\ufeff'

theorem approach_inLine {c : Char} (hc : startsToken c = true) :
    (inLine (c :: cs) column tokens keyAllowed key outer).approach =
      inLine (c :: cs) column tokens keyAllowed key outer := by
  simp only [startsToken, isGap, Bool.and_eq_true, Bool.not_eq_true', Bool.or_eq_false_iff,
    decide_eq_true_eq, decide_eq_false_iff_not] at hc
  obtain ⟨⟨⟨⟨hspace, htab⟩, hbreak⟩, hcomment⟩, hmark⟩ := hc
  have hskip : (inLine (c :: cs) column tokens keyAllowed key outer).skipToToken =
      inLine (c :: cs) column tokens keyAllowed key outer := by
    simp [skipToToken, skipBlank, inLine, hspace, htab, hbreak, hcomment, hmark]
  rw [approach, hskip]
  cases outer with
  | cons o outer => rfl
  | nil =>
    have hclose : ¬ ((-1 : Int) > column) := by omega
    simp only [unroll, inLine, inFlow, closeTo, hclose]
    rfl

/-- A run goes on from where its next token ends. -/
theorem run_of_token {c : Char} {next : Lexer} (hc : startsToken c = true)
    (htoken : (inLine (c :: cs) column tokens keyAllowed key outer).token c cs = .ok next)
    (hless : next.cursor.rest.length < (c :: cs).length) :
    (inLine (c :: cs) column tokens keyAllowed key outer).run = next.run := by
  rw [run, approach_inLine hc]
  simp only [inLine] at *
  simp only [htoken, hless, if_true]

/-- Whether a character opens a flow collection with a token. -/
def IsOpening (c : Char) (t : Token) : Prop :=
  (c = '[' ∧ t = .flowSequenceStart) ∨ (c = '\x7b' ∧ t = .flowMappingStart)

/-- Whether a character closes a flow collection with a token. -/
def IsClosing (c : Char) (t : Token) : Prop :=
  (c = ']' ∧ t = .flowSequenceEnd) ∨ (c = '\x7d' ∧ t = .flowMappingEnd)

/-- A flow collection starts: its members may be keys, and it may be one itself. -/
theorem run_flowStart {c : Char} {t : Token}
    (hc : IsOpening c t)
    (h : IsOptional key) :
    (inLine (c :: cs) column tokens keyAllowed key outer).run =
      (inLine cs (column + 1) (t :: tokens) true none
        (noted (c :: cs) column tokens keyAllowed key :: outer)).run := by
  have htoken : (inLine (c :: cs) column tokens keyAllowed key outer).token c cs =
      (inLine (c :: cs) column tokens keyAllowed key outer).flowStart t := by
    rcases hc with ⟨rfl, rfl⟩ | ⟨rfl, rfl⟩ <;> simp [token, isMark_of_ne]
  have hstart : startsToken c = true := by rcases hc with ⟨rfl, -⟩ | ⟨rfl, -⟩ <;> rfl
  refine run_of_token hstart (htoken.trans ?_) ?_
  · rw [flowStart, saveKey_inLine h]
    rfl
  · simp [inLine]

/-- A flow collection ends: it may itself turn out to be what it might have been at its start. -/
theorem run_flowEnd {c : Char} {t : Token}
    (hc : IsClosing c t)
    (h : IsOptional key) (o : Option PossibleKey) :
    (inLine (c :: cs) column tokens keyAllowed key (o :: outer)).run =
      (inLine cs (column + 1) (t :: tokens) false o outer).run := by
  have htoken : (inLine (c :: cs) column tokens keyAllowed key (o :: outer)).token c cs =
      (inLine (c :: cs) column tokens keyAllowed key (o :: outer)).flowEnd t := by
    rcases hc with ⟨rfl, rfl⟩ | ⟨rfl, rfl⟩ <;> simp [token, isMark_of_ne]
  have hstart : startsToken c = true := by rcases hc with ⟨rfl, -⟩ | ⟨rfl, -⟩ <;> rfl
  refine run_of_token hstart (htoken.trans ?_) ?_
  · rw [flowEnd, dropKey_inLine h]
    rfl
  · simp [inLine]

/-- A comma lets the next member be a key. -/
theorem run_flowEntry (h : IsOptional key) :
    (inLine (',' :: cs) column tokens keyAllowed key outer).run =
      (inLine cs (column + 1) (.flowEntry :: tokens) true none outer).run := by
  have htoken : (inLine (',' :: cs) column tokens keyAllowed key outer).token ',' cs =
      (inLine (',' :: cs) column tokens keyAllowed key outer).flowEntry := by
    simp [token, isMark_of_ne]
  refine run_of_token rfl (htoken.trans ?_) ?_
  · rw [flowEntry, dropKey_inLine h]
    rfl
  · simp [inLine]

/-- A text of printable characters is read from its double quotes. -/
theorem quotedScalar_writeText {s : String} (hs : ∀ c ∈ s.toList, IsPrintable c) (cs : List Char)
    (column : Nat) : quotedScalar .doubleQuoted ⟨Json.writeText (some s) ++ cs, 0, column⟩ =
      .ok (.scalar .doubleQuoted s, ⟨cs, 0, column + (Json.writeText (some s)).length⟩) := by
  have htext : Json.writeText (some s) ++ cs =
      '"' :: (s.toList.flatMap Json.escapeChar ++ '"' :: cs) := by
    show '"' :: (s.toList.flatMap Json.escapeChar ++ ['"']) ++ cs = _
    rw [List.cons_append, List.append_assoc, List.singleton_append]
  have hend : column + 1 + (s.toList.flatMap Json.escapeChar).length + 1 =
      column + (Json.writeText (some s)).length := by
    show _ = column + ('"' :: (s.toList.flatMap Json.escapeChar ++ ['"'])).length
    rw [List.length_cons, List.length_append, List.length_singleton]
    omega
  have hread := readDoubleQuoted_escaped 0 [] cs (Nat.succ_pos column) hs
  rw [List.nil_append, Nat.succ_eq_add_one, hend] at hread
  rw [htext]
  show (readDoubleQuoted 0 (column + 1) (.text (.blanks []))
    (s.toList.flatMap Json.escapeChar ++ '"' :: cs) >>= _) = _
  rw [hread]
  show Except.ok (_, _) = _
  rw [String.ofList_toList]

/-- A text in double quotes is a scalar, and may be a key where one is allowed. -/
theorem run_quoted {s : String} (hs : ∀ c ∈ s.toList, IsPrintable c) (h : IsOptional key) :
    (inLine (Json.writeText (some s) ++ cs) column tokens keyAllowed key outer).run =
      (inLine cs (column + (Json.writeText (some s)).length) (.scalar .doubleQuoted s :: tokens) false
        (noted (Json.writeText (some s) ++ cs) column tokens keyAllowed key) outer).run := by
  have hread := quotedScalar_writeText hs cs column
  obtain ⟨rest, hrest⟩ : ∃ rest, Json.writeText (some s) ++ cs = '"' :: rest := ⟨_, rfl⟩
  have htoken : (inLine ('"' :: rest) column tokens keyAllowed key outer).token '"' rest =
      (inLine ('"' :: rest) column tokens keyAllowed key outer).nodeToken
        (quotedScalar .doubleQuoted) := by
    simp [token, isMark_of_ne]
  have hless : cs.length < ('"' :: rest).length := by
    rw [← hrest, List.length_append]
    exact Nat.lt_add_of_pos_left (Nat.succ_pos _)
  rw [hrest] at hread ⊢
  refine run_of_token rfl (htoken.trans ?_) hless
  rw [nodeToken, saveKey_inLine h]
  show (quotedScalar _ ⟨_, _, _⟩ >>= _) = _
  rw [hread]
  rfl

/-- A token is put in before the last one. -/
theorem emitAt_inLine (t u : Token) :
    (inLine cs column (t :: tokens) keyAllowed key outer).emitAt tokens.length u =
      inLine cs column (t :: u :: tokens) keyAllowed key outer := by
  simp [emitAt, inLine]

/-- The colon after a node that may be a key makes one of it. -/
theorem valueMark_of_liveKey {s : Lexer} {k : PossibleKey} (h : s.liveKey = .ok (some k)) :
    s.valueMark =
      .ok (skip 1 (emit .value (allowKey false
        { (s.emitAt k.position .key).roll k.column k.position .blockMappingStart with
          key := none }))) := by
  rw [valueMark, h]
  rfl

/-- The colon after a node of one token makes a key of it, if it may be one and is short enough. -/
theorem run_value {k : List Char} (hk : Text.utf8Length k ≤ maxKeyLength) (t : Token)
    (o : Option PossibleKey) :
    (inLine (':' :: cs) (column + k.length) (t :: tokens) keyAllowed
        (some ⟨tokens.length, 0, column, k ++ ':' :: cs, false⟩) (o :: outer)).run =
      (inLine cs (column + k.length + 1) (.value :: t :: .key :: tokens) false none
        (o :: outer)).run := by
  have htoken (s : Lexer) (hs : s.inFlow = true) : s.token ':' cs = s.valueMark := by
    simp [token, isMark_of_ne, hs]
  have hlive : (inLine (':' :: cs) (column + k.length) (t :: tokens) keyAllowed
      (some ⟨tokens.length, 0, column, k ++ ':' :: cs, false⟩) (o :: outer)).liveKey =
        .ok (some ⟨tokens.length, 0, column, k ++ ':' :: cs, false⟩) := by
    simp [liveKey, inLine, isLive, hk]
  refine run_of_token rfl ((htoken _ rfl).trans ((valueMark_of_liveKey hlive).trans ?_)) ?_
  · rw [emitAt_inLine]
    rfl
  · simp [inLine]

/-- Whether a character goes on with a plain scalar inside flow collections, whatever follows it. -/
def isWordChar (c : Char) : Bool := !isGap c && !isBreak c && c ≠ ':' && !isFlowMark c

/-- A word is read up to the mark after it. -/
theorem readPlain_word {w : List Char} (hw : ∀ d ∈ w, isWordChar d = true) {c : Char}
    (hc : isFlowMark c = true) (indent : Int) (line : Nat) :
    readPlain true indent line column .none (w ++ c :: cs) =
      .ok ⟨w, ⟨c :: cs, line, column + w.length⟩, false⟩ := by
  induction w generalizing column with
  | nil =>
    have hmark : isGap c = false ∧ isBreak c = false ∧ c ≠ ':' := by
      simp only [isFlowMark, Bool.or_eq_true, decide_eq_true_eq] at hc
      rcases hc with (((rfl | rfl) | rfl) | rfl) | rfl <;> decide
    rw [List.nil_append, readPlain]
    simp [hmark, hc, Gap.none, Gap.isSome, Gap.hasBreak]
  | cons d w ih =>
    obtain ⟨hd, hw⟩ := List.forall_mem_cons.1 hw
    simp only [isWordChar, Bool.and_eq_true, Bool.not_eq_true', decide_eq_true_eq] at hd
    obtain ⟨⟨⟨hgap, hbreak⟩, hcolon⟩, hmark⟩ := hd
    rw [List.cons_append, readPlain, if_neg (by simp [hgap]), if_neg (by simp [hbreak]),
      if_neg (by simp [Gap.none, Gap.isSome]), if_neg (by simp [hcolon]),
      if_neg (by simp [hcolon, hmark]), ih hw, prependText, List.length_cons]
    simp only [Gap.none, Gap.text, List.nil_append, List.singleton_append]
    rw [Nat.add_assoc, Nat.add_comm 1]

/-- A word that starts like a truth value is a plain scalar, if a mark follows. -/
theorem run_word {d : Char} (hd : d = 't' ∨ d = 'f') {w : List Char}
    (hw : ∀ d ∈ w, isWordChar d = true) {c : Char} (hc : isFlowMark c = true) (h : IsOptional key)
    (o : Option PossibleKey) :
    (inLine (d :: w ++ c :: cs) column tokens keyAllowed key (o :: outer)).run =
      (inLine (c :: cs) (column + (d :: w).length)
        (.scalar .plain (String.ofList (d :: w)) :: tokens) false
        (noted (d :: w ++ c :: cs) column tokens keyAllowed key) (o :: outer)).run := by
  have htoken (s : Lexer) (hs : s.inFlow = true) : s.token d (w ++ c :: cs) = s.plainScalar := by
    rcases hd with rfl | rfl <;>
      simp [token, isMark_of_ne, startsPlain, endsWord, isGap, isBreak, isFlowMark]
  have hstart : startsToken d = true := by rcases hd with rfl | rfl <;> rfl
  have hword : ∀ e ∈ d :: w, isWordChar e = true := by
    refine List.forall_mem_cons.2 ⟨?_, hw⟩
    rcases hd with rfl | rfl <;> rfl
  have hless : (c :: cs).length < (d :: (w ++ c :: cs)).length := by
    rw [List.length_cons (a := d), List.length_append]
    omega
  refine run_of_token hstart ((htoken _ rfl).trans ?_) hless
  rw [plainScalar, saveKey_inLine h]
  show (readPlain true _ 0 column .none (d :: w ++ c :: cs) >>= _) = _
  rw [readPlain_word hword hc]
  rfl

/-! ## Members of flow collections -/

/-- Whether a text is read as tokens wherever it stands before a mark inside flow collections, given whether
a key may start there. -/
def Yields (keyAllowed : Bool) (cs : List Char) (ts : List Token) : Prop :=
  ∀ {c : Char} (rest : List Char) (column : Nat) (tokens : List Token) {key : Option PossibleKey}
    (o : Option PossibleKey) (outer : List (Option PossibleKey)), isFlowMark c = true →
    IsOptional key → ∃ key', IsOptional key' ∧
      (inLine (cs ++ c :: rest) column tokens keyAllowed key (o :: outer)).run =
        (inLine (c :: rest) (column + cs.length) (ts.reverse ++ tokens) false key' (o :: outer)).run

/-- A printable text in double quotes yields a scalar. -/
theorem yields_writeText {s : String} (hs : ∀ c ∈ s.toList, IsPrintable c) :
    Yields keyAllowed (Json.writeText (some s)) [.scalar .doubleQuoted s] :=
  fun _ _ _ _ _ _ _ h => ⟨_, isOptional_noted h, run_quoted hs h⟩

/-- A word yields a plain scalar. -/
theorem yields_word {d : Char} (hd : d = 't' ∨ d = 'f') {w : List Char}
    (hw : ∀ d ∈ w, isWordChar d = true) :
    Yields keyAllowed (d :: w) [.scalar .plain (String.ofList (d :: w))] :=
  fun _ _ _ _ _ _ hc h => ⟨_, isOptional_noted h, run_word hd hw hc h _⟩

/-- A text in double quotes, a colon and a value yield a key and its value, where a key may start. -/
theorem Yields.field {name : String} (hname : ∀ c ∈ name.toList, IsPrintable c)
    (hlength : Text.utf8Length (Json.writeText (some name)) ≤ maxKeyLength) {cs : List Char}
    {ts : List Token} (h : Yields false cs ts) :
    Yields true (Json.writeText (some name) ++ ':' :: cs)
      (.key :: .scalar .doubleQuoted name :: .value :: ts) := by
  intro c rest column tokens key o outer hc hkey
  obtain ⟨key', hkey', hrun⟩ := h rest
    (column + (Json.writeText (some name)).length + 1)
    (.value :: .scalar .doubleQuoted name :: .key :: tokens) o outer hc isOptional_none
  refine ⟨key', hkey', ?_⟩
  rw [List.append_assoc, List.cons_append, run_quoted hname hkey]
  show (inLine (':' :: _) _ _ _ (some ⟨tokens.length, 0, column, _, false⟩) _).run = _
  rw [run_value hlength, hrun, List.length_append, List.length_cons]
  simp only [List.reverse_cons, List.append_assoc, List.cons_append, List.nil_append]
  rw [← Nat.add_assoc, Nat.add_right_comm, ← Nat.add_assoc]

section Members

variable {members : List (List Char)} {tokenss : List (List Token)}

/-- Members with commas between them yield their tokens with commas between them. -/
theorem run_members (h : List.Forall₂ (Yields true) members tokenss) {c : Char}
    (hc : isFlowMark c = true) (rest : List Char) (column : Nat) (tokens : List Token)
    (o : Option PossibleKey) : ∃ allowed key', IsOptional key' ∧
      (inLine (Json.separated [','] members ++ c :: rest) column tokens true none (o :: outer)).run =
        (inLine (c :: rest) (column + (Json.separated [','] members).length)
          ((Json.separated [.flowEntry] tokenss).reverse ++ tokens) allowed key' (o :: outer)).run := by
  induction h generalizing column tokens with
  | nil => exact ⟨true, none, isOptional_none, rfl⟩
  | @cons member ts members tokenss hmember hrest ih =>
    cases hrest with
    | nil =>
      obtain ⟨key', hkey', hrun⟩ := hmember rest column tokens o outer hc isOptional_none
      exact ⟨false, key', hkey', hrun⟩
    | @cons second us members tokenss hsecond hlater =>
      obtain ⟨key', hkey', hrun⟩ := hmember (c := ',')
        (Json.separated [','] (second :: members) ++ c :: rest) column tokens o outer rfl isOptional_none
      obtain ⟨allowed, key'', hkey'', hmembers⟩ :=
        ih (column + member.length + 1) (.flowEntry :: (ts.reverse ++ tokens))
      refine ⟨allowed, key'', hkey'', ?_⟩
      have hcolumn : column + (member ++ [','] ++ Json.separated [','] (second :: members)).length =
          column + member.length + 1 + (Json.separated [','] (second :: members)).length := by
        simp only [List.length_append, List.length_singleton]
        omega
      have htokens : (ts ++ [Token.flowEntry] ++ Json.separated [.flowEntry] (us :: tokenss)).reverse ++
          tokens = (Json.separated [.flowEntry] (us :: tokenss)).reverse ++
            .flowEntry :: (ts.reverse ++ tokens) := by
        simp
      rw [Json.separated, Json.separated, hcolumn, htokens, List.append_assoc, List.append_assoc,
        List.singleton_append, hrun, run_flowEntry hkey', hmembers]

/-- A collection starts and has its members; where its end is read depends on what is around it. -/
theorem run_enclosed {opening closing : Char} {first last : Token}
    (hopening : IsOpening opening first) (hclosing : IsClosing closing last)
    (h : List.Forall₂ (Yields true) members tokenss) (rest : List Char) (column : Nat)
    (tokens : List Token) (outer : List (Option PossibleKey)) (hkey : IsOptional key) :
    (inLine (opening :: (Json.separated [','] members ++ [closing]) ++ rest) column tokens keyAllowed
        key outer).run =
      (inLine rest (column + (opening :: (Json.separated [','] members ++ [closing])).length)
        ((first :: (Json.separated [.flowEntry] tokenss ++ [last])).reverse ++ tokens) false
        (noted (opening :: (Json.separated [','] members ++ [closing]) ++ rest) column tokens keyAllowed
          key) outer).run := by
  have hmark : isFlowMark closing = true := by
    rcases hclosing with ⟨rfl, -⟩ | ⟨rfl, -⟩ <;> rfl
  rw [List.cons_append, run_flowStart hopening hkey, List.append_assoc, List.singleton_append]
  obtain ⟨allowed, key', hkey', hmembers⟩ := run_members h hmark rest (column + 1) (first :: tokens)
    (noted (opening :: (Json.separated [','] members ++ closing :: rest)) column tokens keyAllowed key)
  rw [hmembers, run_flowEnd hclosing hkey']
  simp only [List.reverse_append, List.reverse_cons, List.reverse_nil, List.nil_append,
    List.append_assoc, List.cons_append, List.length_append, List.length_cons, List.length_nil]
  congr 2
  omega

/-- Members between brackets yield the brackets around their tokens. -/
theorem yields_enclosed {opening closing : Char} {first last : Token}
    (hopening : IsOpening opening first) (hclosing : IsClosing closing last)
    (h : List.Forall₂ (Yields true) members tokenss) :
    Yields keyAllowed (opening :: (Json.separated [','] members ++ [closing]))
      (first :: (Json.separated [.flowEntry] tokenss ++ [last])) :=
  fun _ _ _ _ _ _ _ hkey =>
    ⟨_, isOptional_noted hkey, run_enclosed hopening hclosing h _ _ _ _ hkey⟩

/-- At the end of the text the tokens end. -/
theorem run_end (hkey : IsOptional key) :
    (inLine [] column tokens keyAllowed key []).run = .ok (.streamEnd :: tokens).reverse := by
  have hclose : ∀ n : Int, -1 ≤ n → ¬ ((-1 : Int) > n) := by omega
  have hunroll (n : Int) (hn : -1 ≤ n) : (inLine [] column tokens keyAllowed key []).unroll n =
      inLine [] column tokens keyAllowed key [] := by
    simp only [unroll, inLine, inFlow, closeTo, hclose n hn]
    rfl
  have happroach : (inLine [] column tokens keyAllowed key []).approach =
      inLine [] column tokens keyAllowed key [] := hunroll column (by omega)
  have hfinish : (inLine [] column tokens keyAllowed key []).finish =
      .ok (((inLine [] column tokens keyAllowed none []).allowKey false).emit .streamEnd) := by
    rw [finish, hunroll (-1) (by omega), dropKey_inLine hkey]
    rfl
  rw [run, happroach]
  show (inLine [] column tokens keyAllowed key []).finish.map _ = _
  rw [hfinish]
  rfl

/-- A text that is a collection is read as its tokens, and then ends. -/
theorem run_start_enclosed {opening closing : Char} {first last : Token}
    (hopening : IsOpening opening first) (hclosing : IsClosing closing last)
    (h : List.Forall₂ (Yields true) members tokenss) :
    (start (opening :: (Json.separated [','] members ++ [closing]))).run =
      .ok (first :: (Json.separated [.flowEntry] tokenss ++ [last]) ++ [.streamEnd]) := by
  show (inLine _ 0 [] true none []).run = _
  rw [← List.append_nil (opening :: _), run_enclosed hopening hclosing h [] 0 [] [] isOptional_none,
    run_end (isOptional_noted isOptional_none), List.append_nil, List.reverse_cons, List.reverse_reverse]

end Members

end Lexer

end NavPolicy.Yaml
