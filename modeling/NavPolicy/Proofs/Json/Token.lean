import Mathlib.Tactic.SplitIfs
import NavPolicy.Json.Token
import NavPolicy.Proofs.Text.Digits

/-!
# Written tokens are read back

A token in its written form is the first one that is read, provided that what follows cannot be taken
for a part of it (`lex_write`).  This asks of the token that it is plain: its string stands for a text,
and its number is an integer.

## Strings

`pieceOf` is the piece under which a character comes back from its escaped form: as a 16-bit unit where
it is a control character without a letter of its own, else as itself.
-/

namespace NavPolicy.Json

/-! ## Strings -/

/-- The piece that the escaped form of a character is read as. -/
def pieceOf (c : Char) : Piece :=
  if shortEscape? c = none ∧ c.toNat < 0x20 then .unit c.toNat else .char c

/-- A character that is no control character is written as itself, except for the quote and the backslash. -/
theorem escapeChar_eq_self {c : Char} (hspace : 0x20 ≤ c.toNat) (hquote : c ≠ '"') (hslash : c ≠ '\\') :
    escapeChar c = [c] := by
  have hne {d : Char} (hd : d.toNat < 0x20) : c ≠ d := by
    rintro rfl
    omega
  have hshort : shortEscape? c = none := by
    simp [shortEscape?, hquote, hslash, hne (d := '\x08') (by decide), hne (d := '\x0c') (by decide),
      hne (d := '\n') (by decide), hne (d := '\r') (by decide), hne (d := '\t') (by decide)]
  simp only [escapeChar, hshort, Nat.not_lt.2 hspace, if_false]

/-- A character that is written by a letter after a backslash is the one the letter stands for. -/
theorem unescape?_of_shortEscape? {c letter : Char} (h : shortEscape? c = some letter) :
    unescape? letter = some c ∧ letter ≠ 'u' := by
  unfold shortEscape? at h
  split_ifs at h <;>
    (obtain rfl := Option.some.inj h
     subst_vars
     exact ⟨rfl, by decide⟩)

/-- The hexadecimal digits of a control character spell its number. -/
theorem readBase?_control {n : Nat} (h : n < 0x20) :
    Text.readBase? 16 ['0', '0', Text.lowerHexDigit (n / 16), Text.lowerHexDigit (n % 16)] = some n := by
  revert n
  decide

/-- Reading goes through the escaped form of a character as through one piece. -/
theorem readPieces_escapeChar (c : Char) (rest : List Char) :
    readPieces (escapeChar c ++ rest) =
      (readPieces rest).map fun (ps, rest) => (pieceOf c :: ps, rest) := by
  rw [escapeChar, pieceOf]
  cases hshort : shortEscape? c with
  | some letter =>
    obtain ⟨hletter, hu⟩ := unescape?_of_shortEscape? hshort
    simp only [List.cons_append, List.nil_append]
    rw [readPieces.eq_4 letter rest (fun _ _ _ _ _ h _ => hu h), hletter]
    simp
  | none =>
    have hquote : c ≠ '"' := fun hc => by simp [hc, shortEscape?] at hshort
    have hslash : c ≠ '\\' := fun hc => by simp [hc, shortEscape?] at hshort
    by_cases hcontrol : c.toNat < 0x20
    · simp only [hcontrol, if_true, List.cons_append, List.nil_append]
      rw [readPieces.eq_3, readBase?_control hcontrol]
      simp
    · simp only [hcontrol, if_false, List.cons_append, List.nil_append]
      rw [readPieces.eq_5 c rest hquote (fun _ _ _ _ _ h _ => hslash h) (fun _ _ h _ => hslash h)]
      simp [hslash, hcontrol]

/-- An escaped text is read as the pieces of its characters, up to the closing quote. -/
theorem readPieces_escaped (cs rest : List Char) :
    readPieces (cs.flatMap escapeChar ++ '"' :: rest) = some (cs.map pieceOf, rest) := by
  induction cs with
  | nil => rfl
  | cons c cs ih =>
    rw [List.flatMap_cons, List.append_assoc, readPieces_escapeChar, ih]
    rfl

/-- The pieces of characters stand for the characters. -/
theorem joinPieces_map_pieceOf (cs : List Char) : joinPieces (cs.map pieceOf) = some cs := by
  induction cs with
  | nil => rfl
  | cons c cs ih =>
    rw [List.map_cons, pieceOf]
    split
    · rename_i hcontrol
      -- a control character is far below the units that come in pairs
      have hhigh : isHighHalf c.toNat = false := by
        simp only [isHighHalf, Bool.and_eq_false_iff, decide_eq_false_iff_not]
        omega
      have hlow : isLowHalf c.toNat = false := by
        simp only [isLowHalf, Bool.and_eq_false_iff, decide_eq_false_iff_not]
        omega
      rw [joinPieces.eq_def]
      simp [hhigh, hlow, ih, Char.ofNat_toNat]
    · rw [joinPieces, ih]
      rfl

/-! ## Numbers -/

/-- A run of characters of one kind ends where a character of another kind follows. -/
theorem takeWhile_append_of_head {p : Char → Bool} {cs rest : List Char}
    (hcs : ∀ c ∈ cs, p c = true) (hrest : ∀ c ∈ rest.head?, p c = false) :
    (cs ++ rest).takeWhile p = cs ∧ (cs ++ rest).dropWhile p = rest := by
  rw [List.takeWhile_append_of_pos hcs, List.dropWhile_append_of_pos hcs]
  cases rest with
  | nil => exact ⟨List.append_nil cs, rfl⟩
  | cons d ds =>
    have hd : p d = false := hrest d rfl
    rw [List.takeWhile_cons_of_neg (by simp [hd]), List.dropWhile_cons_of_neg (by simp [hd])]
    exact ⟨List.append_nil cs, rfl⟩

/-- The digits of a number are read as the number. -/
theorem readUnsigned?_natDigits (negative : Bool) (written : List Char) (n : Nat) :
    readUnsigned? negative written (Text.natDigits n) = some (.integer negative n) := by
  have hdigits : ∀ c ∈ Text.natDigits n, c.isDigit = true := fun c => Text.isDigit_of_mem_natDigits
  have hzero : ((Text.natDigits n).length > 1 && (Text.natDigits n).head? = some '0') = false := by
    by_contra hlead
    simp only [Bool.not_eq_false, Bool.and_eq_true, decide_eq_true_eq] at hlead
    obtain rfl := Text.eq_zero_of_head?_natDigits hlead.2
    exact absurd hlead.1 (by decide)
  have hnone : ∀ c ∈ ([] : List Char).head?, c.isDigit = false := by simp
  obtain ⟨htake, hdrop⟩ := takeWhile_append_of_head hdigits hnone
  rw [List.append_nil] at htake hdrop
  rw [readUnsigned?, htake, hdrop]
  simp only [hzero, Text.readNat?_natDigits]
  rfl

/-- A written integer is read as the integer. -/
theorem readNumeral?_write (negative : Bool) (n : Nat) :
    readNumeral? (writeNumeral (.integer negative n)) = some (.integer negative n) := by
  cases negative with
  | true => exact readUnsigned?_natDigits true _ n
  | false =>
    obtain ⟨d, ds, hds⟩ := List.exists_cons_of_ne_nil (Text.natDigits_ne_nil n)
    have hd : d ≠ '-' := by
      rintro rfl
      exact absurd (Text.isDigit_of_mem_natDigits (n := n) (c := '-') (by simp [hds])) (by decide)
    have hwritten : writeNumeral (.integer false n) = d :: ds := by rw [← hds]; rfl
    rw [hwritten, readNumeral?, ← hds]
    · exact readUnsigned?_natDigits false _ n
    · exact fun _ h => hd (List.cons.inj h).1

/-- An integer is written in characters of numbers. -/
theorem isNumeralChar_of_mem_write {negative : Bool} {n : Nat} {c : Char}
    (h : c ∈ writeNumeral (.integer negative n)) : isNumeralChar c = true := by
  have hdigit : c ∈ Text.natDigits n → isNumeralChar c = true := fun hc => by
    rw [isNumeralChar, Text.isDigit_of_mem_natDigits hc]
    rfl
  cases negative with
  | true =>
    rcases List.mem_cons.1 h with rfl | hc
    · decide
    · exact hdigit hc
  | false => exact hdigit h

/-! ## Tokens -/

/-- Whether a token stands for a value that can be kept: a text, an integer, or no content at all. -/
def Token.IsPlain : Token → Prop
  | .number (.decimal _) => False
  | .string none => False
  | _ => True

/-- Whether a text cannot be taken to go on with a word or a number before it. -/
def Ends (rest : List Char) : Prop :=
  ∀ c ∈ rest.head?, isNumeralChar c = false ∧ c.isAlpha = false

/-- A single mark is read as its token. -/
theorem lex_mark {c : Char} {t : Token} (h : mark? c = some t) (rest : List Char) :
    lex (c :: rest) = (lex rest).map (t :: ·) := by
  have hspace : isSpace c = false := by
    unfold mark? at h
    split_ifs at h <;>
      (subst_vars
       decide)
  rw [lex, hspace, h]
  rfl

/-- A string in its written form is read as the string. -/
theorem lex_string (s : String) (rest : List Char) :
    lex ((Token.string (some s)).write ++ rest) = (lex rest).map (.string (some s) :: ·) := by
  have hwritten : (Token.string (some s)).write ++ rest =
      '"' :: (s.toList.flatMap escapeChar ++ '"' :: rest) := by
    have hquoted : (Token.string (some s)).write =
        '"' :: (s.toList.flatMap escapeChar ++ ['"']) := rfl
    rw [hquoted, List.cons_append, List.append_assoc, List.singleton_append]
  have hspace : isSpace '"' = false := by decide
  have hmark : mark? '"' = none := by decide
  rw [hwritten, lex, hspace, hmark]
  simp only [Bool.false_eq_true, if_false, if_true]
  split
  · rename_i pieces after hread
    rw [readPieces_escaped] at hread
    obtain ⟨rfl, rfl⟩ := Prod.mk.inj (Option.some.inj hread)
    rw [joinPieces_map_pieceOf, Option.map_some, String.ofList_toList]
  · rename_i hread
    rw [readPieces_escaped] at hread
    exact absurd hread (by simp)

/-- A character of numbers is no blank, no mark and no quote. -/
theorem not_special_of_isNumeralChar {c : Char} (h : isNumeralChar c = true) :
    isSpace c = false ∧ mark? c = none ∧ c ≠ '"' := by
  refine ⟨?_, ?_, ?_⟩
  · by_contra hspace
    simp only [isSpace, Bool.not_eq_false, Bool.or_eq_true, decide_eq_true_eq] at hspace
    rcases hspace with ((rfl | rfl) | rfl) | rfl <;> exact absurd h (by decide)
  · unfold mark?
    split_ifs <;>
      first
        | rfl
        | (subst_vars
           exact absurd h (by decide))
  · rintro rfl
    exact absurd h (by decide)

/-- An integer in its written form is read as the integer, if nothing goes on with it. -/
theorem lex_integer (negative : Bool) (n : Nat) {rest : List Char} (h : Ends rest) :
    lex ((Token.number (.integer negative n)).write ++ rest) =
      (lex rest).map (.number (.integer negative n) :: ·) := by
  have hnumeral : ∀ c ∈ writeNumeral (.integer negative n), isNumeralChar c = true :=
    fun c => isNumeralChar_of_mem_write
  have hread := readNumeral?_write negative n
  rw [Token.write]
  cases hw : writeNumeral (.integer negative n) with
  | nil =>
    rw [hw] at hread
    exact absurd hread (by simp [readNumeral?, readUnsigned?, Text.readNat?, Text.readBase?])
  | cons d ds =>
    rw [hw] at hnumeral hread
    have hd := hnumeral d (by simp)
    obtain ⟨htake, hdrop⟩ := takeWhile_append_of_head (p := isNumeralChar)
      (fun c hc => hnumeral c (List.mem_cons_of_mem d hc)) fun c hc => (h c hc).1
    obtain ⟨hspace, hmark, hquote⟩ := not_special_of_isNumeralChar hd
    rw [List.cons_append, lex, hspace, hmark]
    simp only [Bool.false_eq_true, if_false, hquote, hd, if_true, htake, hdrop, hread]

/-- A word in its written form is read as its token, if nothing goes on with it. -/
theorem lex_word {c : Char} {cs : List Char} {t : Token} (hword : word? (c :: cs) = some t)
    (halpha : cs.all Char.isAlpha = true)
    (hc : isSpace c = false ∧ mark? c = none ∧ c ≠ '"' ∧ isNumeralChar c = false)
    {rest : List Char} (h : Ends rest) :
    lex (c :: cs ++ rest) = (lex rest).map (t :: ·) := by
  obtain ⟨hspace, hmark, hquote, hnumeral⟩ := hc
  obtain ⟨htake, hdrop⟩ := takeWhile_append_of_head (p := Char.isAlpha)
    (List.all_eq_true.1 halpha) fun d hd => (h d hd).2
  rw [List.cons_append, lex, hspace, hmark]
  simp only [Bool.false_eq_true, if_false, hquote, hnumeral, htake, hdrop, hword]

/-- A plain token in its written form is read as the token, if nothing goes on with it. -/
theorem lex_write {t : Token} (ht : t.IsPlain) {rest : List Char} (h : Ends rest) :
    lex (t.write ++ rest) = (lex rest).map (t :: ·) := by
  cases t with
  | openArray => exact lex_mark rfl rest
  | closeArray => exact lex_mark rfl rest
  | openObject => exact lex_mark rfl rest
  | closeObject => exact lex_mark rfl rest
  | comma => exact lex_mark rfl rest
  | colon => exact lex_mark rfl rest
  | null => exact lex_word rfl rfl ⟨rfl, rfl, by decide, rfl⟩ h
  | bool b =>
    cases b with
    | true => exact lex_word rfl rfl ⟨rfl, rfl, by decide, rfl⟩ h
    | false => exact lex_word rfl rfl ⟨rfl, rfl, by decide, rfl⟩ h
  | number n =>
    cases n with
    | integer negative n => exact lex_integer negative n h
    | decimal written => exact ht.elim
  | string s =>
    cases s with
    | none => exact ht.elim
    | some s => exact lex_string s rest

end NavPolicy.Json
