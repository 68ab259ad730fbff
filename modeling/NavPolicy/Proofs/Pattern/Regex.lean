import NavPolicy.Pattern.Regex
import NavPolicy.Proofs.Pattern.Wildcard

/-!
# What the regular expression of a pattern stands for

The regular expressions of patterns are made of three parts: escaped characters, characters without a
meaning of their own, and `.*`.  `RegexDenotes` says which texts such an expression stands for.  Every
character of a pattern gives a part that stands for the same, and which part stands at the front can be
told from its first character, so the expression of a pattern stands for the same texts as the pattern
(`regexDenotes_iff_denotes`).
-/

namespace NavPolicy.Pattern

/-! ## Meaning -/

/-- The texts that a regular expression without anchors stands for, if it is made of these parts. -/
inductive RegexDenotes : List Char → List Char → Prop
  /-- The empty expression stands for the empty text. -/
  | nil : RegexDenotes [] []
  /-- An escaped character stands for itself. -/
  | escaped {regex text : List Char} (c : Char) :
      isMeta c = true → RegexDenotes regex text → RegexDenotes ('\\' :: c :: regex) (c :: text)
  /-- A character without a meaning of its own stands for itself. -/
  | literal {regex text : List Char} (c : Char) :
      isMeta c = false → RegexDenotes regex text → RegexDenotes (c :: regex) (c :: text)
  /-- Any number of any characters, of which a newline is none. -/
  | anything {regex text : List Char} (gap : List Char) :
      '\n' ∉ gap → RegexDenotes regex text → RegexDenotes ('.' :: '*' :: regex) (gap ++ text)

/-- Whether a text, from start to end, is what an anchored regular expression stands for. -/
def AnchoredDenotes (regex : String) (text : List Char) : Prop :=
  ∃ body, regex = String.ofList ("^(?:".toList ++ body ++ ")$".toList) ∧ RegexDenotes body text

/-! ## The expression of a pattern -/

/-- The expression without anchors of a pattern. -/
def regexOf (pattern : List Char) : List Char :=
  regexBody (splitAtStars pattern).1 (splitAtStars pattern).2

/-- A star gives `.*`. -/
theorem regexOf_star (pattern : List Char) :
    regexOf ('*' :: pattern) = '.' :: '*' :: regexOf pattern := by
  rw [regexOf, splitAtStars_star]
  rfl

/-- Every other character gives itself, escaped if need be. -/
theorem regexOf_literal {c : Char} (hc : c ≠ '*') (pattern : List Char) :
    regexOf (c :: pattern) = escapeMeta c ++ regexOf pattern := by
  rw [regexOf, splitAtStars_literal hc, regexBody, List.flatMap_cons, List.append_assoc]
  rfl

/-- What stands for a star is a text without newline and then what the rest stands for. -/
theorem regexDenotes_anything_iff {regex text : List Char} :
    RegexDenotes ('.' :: '*' :: regex) text ↔
      ∃ gap rest, '\n' ∉ gap ∧ text = gap ++ rest ∧ RegexDenotes regex rest := by
  constructor
  · intro h
    cases h with
    | literal c hc hrest => exact absurd hc (by decide)
    | anything gap hgap hrest => exact ⟨gap, _, hgap, rfl, hrest⟩
  · rintro ⟨gap, rest, hgap, rfl, hrest⟩
    exact .anything gap hgap hrest

/-- What stands for a character is that character and then what the rest stands for. -/
theorem regexDenotes_escapeMeta_iff {c : Char} {regex text : List Char} :
    RegexDenotes (escapeMeta c ++ regex) text ↔
      ∃ rest, text = c :: rest ∧ RegexDenotes regex rest := by
  rw [escapeMeta]
  cases hc : isMeta c with
  | true =>
    rw [if_pos rfl]
    constructor
    · intro h
      cases h with
      | escaped c hc hrest => exact ⟨_, rfl, hrest⟩
      | literal c hc hrest => exact absurd hc (by decide)
    · rintro ⟨rest, rfl, hrest⟩
      exact .escaped c hc hrest
  | false =>
    rw [if_neg Bool.false_ne_true]
    constructor
    · intro h
      cases h with
      | escaped => exact absurd hc (by decide)
      | literal c hc hrest => exact ⟨_, rfl, hrest⟩
      | anything => exact absurd hc (by decide)
    · rintro ⟨rest, rfl, hrest⟩
      exact .literal c hc hrest

/-- The expression of a pattern stands for the same texts as the pattern. -/
theorem regexDenotes_iff_denotes (pattern text : List Char) :
    RegexDenotes (regexOf pattern) text ↔ Denotes pattern text := by
  induction pattern generalizing text with
  | nil =>
    constructor
    · rintro ⟨⟩
      exact .nil
    · rintro ⟨⟩
      exact .nil
  | cons c pattern ih =>
    by_cases hc : c = '*'
    · subst hc
      rw [regexOf_star, regexDenotes_anything_iff]
      constructor
      · rintro ⟨gap, rest, hgap, rfl, hrest⟩
        exact .star gap hgap ((ih rest).1 hrest)
      · intro h
        cases h with
        | star gap hgap hrest => exact ⟨gap, _, hgap, rfl, (ih _).2 hrest⟩
        | literal _ hne => exact absurd rfl hne
    · rw [regexOf_literal hc, regexDenotes_escapeMeta_iff]
      constructor
      · rintro ⟨rest, rfl, hrest⟩
        exact .literal c hc ((ih rest).1 hrest)
      · intro h
        cases h with
        | star => exact absurd rfl hc
        | literal c _ hrest => exact ⟨_, rfl, (ih _).2 hrest⟩

/-- The anchored expression of a pattern stands for the same texts as the pattern. -/
theorem anchoredDenotes_regexSource_iff (pattern : String) (text : List Char) :
    AnchoredDenotes (regexSource pattern) text ↔ Denotes pattern.toList text := by
  rw [← regexDenotes_iff_denotes]
  constructor
  · rintro ⟨body, hbody, hdenotes⟩
    have hlists := List.append_cancel_right (String.ofList_injective hbody)
    rw [regexOf, List.append_cancel_left hlists]
    exact hdenotes
  · exact fun h => ⟨_, rfl, h⟩

end NavPolicy.Pattern
