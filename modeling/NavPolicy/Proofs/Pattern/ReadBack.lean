import Mathlib.Data.List.Forall2
import NavPolicy.Proofs.Pattern.Regex

/-!
# Patterns are read back from their regular expressions

Between its anchors the regular expression of a pattern is read from left to right, a part at a time: a
backslash takes the character after it along, `.*` is one part, and every other character stands alone.
Each character of the pattern gives just one part, which is told from what follows by its first character
(`readParts_escapeMeta`), so the parts stand for the characters of the pattern one by one
(`forall₂_readParts`) and the pattern is found again.
-/

namespace NavPolicy.Pattern

/-! ## Reading -/

/-- A part of a regular expression. -/
inductive RegexPart where
  /-- A character after a backslash. -/
  | escaped (c : Char)
  /-- The two characters `.*`. -/
  | anything
  /-- A character that stands alone. -/
  | plain (c : Char)
  deriving DecidableEq, Repr

/-- The character of a pattern that a part is read as. -/
def RegexPart.glyph : RegexPart → Char
  | escaped c => c
  | anything => '*'
  | plain c => c

/-- The parts of a regular expression without anchors, from left to right. -/
def readParts : List Char → List RegexPart
  | [] => []
  | '\\' :: c :: rest => .escaped c :: readParts rest
  | '.' :: '*' :: rest => .anything :: readParts rest
  | c :: rest => .plain c :: readParts rest

/-- What stands between the anchors of a regular expression. -/
def unanchored? (regex : String) : Option (List Char) :=
  (regex.toList.dropPrefix? "^(?:".toList).bind (·.dropSuffix? ")$".toList)

/-- The pattern that an anchored regular expression is read as. -/
def readBack? (regex : String) : Option String :=
  (unanchored? regex).map fun body => String.ofList ((readParts body).map RegexPart.glyph)

/-- The characters that are operators of regular expressions, wherever they stand unescaped. -/
def operators : List Char := "\\.+*?()|[]\x7b\x7d^$".toList

/-- Whether a backslash before the character makes a class or an assertion of it. -/
def gainsMeaning (c : Char) : Bool := c.isAlphanum || c = '<' || c = '>'

/-- Whether a part stands for a character of a pattern: it is read as this character, is `.*` just for a
star, is no operator where it stands alone, and gains no meaning where it stands after a backslash. -/
structure RegexPart.StandsFor (part : RegexPart) (c : Char) : Prop where
  glyph_eq : part.glyph = c
  anything_iff : part = .anything ↔ c = '*'
  plain : ∀ d, part = .plain d → d ∉ operators
  escaped : ∀ d, part = .escaped d → gainsMeaning d = false

/-! ## The parts of an expression -/

/-- All operators have a meaning in regular expressions. -/
theorem isMeta_of_mem_operators {c : Char} (h : c ∈ operators) : isMeta c = true := by
  have hall : operators.all isMeta = true := by decide
  exact List.all_eq_true.1 hall c h

/-- A character that has a meaning loses it after a backslash and gains no other. -/
theorem gainsMeaning_of_isMeta {c : Char} (h : isMeta c = true) : gainsMeaning c = false := by
  have hall : ("\\.+*?()|[]\x7b\x7d^$#&-~".toList.any gainsMeaning) = false := by decide
  simpa using List.any_eq_false.1 hall c (List.contains_iff_mem.1 h)

/-- A character that has no meaning stands alone. -/
theorem readParts_plain {c : Char} (hc : isMeta c = false) (rest : List Char) :
    readParts (c :: rest) = .plain c :: readParts rest := by
  rw [readParts]
  · rintro d ds rfl -
    exact absurd hc (by decide)
  · rintro ds rfl -
    exact absurd hc (by decide)

/-- The part that a character other than a star gives. -/
def partOf (c : Char) : RegexPart := if isMeta c then .escaped c else .plain c

/-- A character gives one part, whatever follows. -/
theorem readParts_escapeMeta (c : Char) (rest : List Char) :
    readParts (escapeMeta c ++ rest) = partOf c :: readParts rest := by
  rw [escapeMeta, partOf]
  cases hc : isMeta c with
  | true => rfl
  | false => exact readParts_plain hc rest

/-- The part that a character other than a star gives stands for it. -/
theorem standsFor_partOf {c : Char} (hc : c ≠ '*') : (partOf c).StandsFor c := by
  rw [partOf]
  cases hmeta : isMeta c with
  | true =>
    refine ⟨rfl, ⟨fun h => absurd h (by simp), fun h => absurd h hc⟩, fun d h => absurd h (by simp),
      fun d h => ?_⟩
    obtain rfl : c = d := RegexPart.escaped.inj h
    exact gainsMeaning_of_isMeta hmeta
  | false =>
    refine ⟨rfl, ⟨fun h => absurd h (by simp), fun h => absurd h hc⟩, fun d h hd => ?_,
      fun d h => absurd h (by simp)⟩
    obtain rfl : c = d := RegexPart.plain.inj h
    exact absurd (isMeta_of_mem_operators hd) (by simp [hmeta])

/-- A star gives `.*`, which stands for it. -/
theorem standsFor_anything : RegexPart.anything.StandsFor '*' :=
  ⟨rfl, ⟨fun _ => rfl, fun _ => rfl⟩, fun _ h => absurd h (by simp), fun _ h => absurd h (by simp)⟩

/-- The parts of the expression of a pattern stand for its characters one by one. -/
theorem forall₂_readParts (pattern : List Char) :
    List.Forall₂ RegexPart.StandsFor (readParts (regexOf pattern)) pattern := by
  induction pattern with
  | nil => exact .nil
  | cons c pattern ih =>
    by_cases hc : c = '*'
    · subst hc
      rw [regexOf_star]
      exact .cons standsFor_anything ih
    · rw [regexOf_literal hc, readParts_escapeMeta]
      exact .cons (standsFor_partOf hc) ih

/-! ## The whole expression -/

/-- Between the anchors stands the expression of the pattern. -/
theorem unanchored?_regexSource (pattern : String) :
    unanchored? (regexSource pattern) = some (regexOf pattern.toList) := by
  have hsource : (regexSource pattern).toList =
      "^(?:".toList ++ (regexOf pattern.toList ++ ")$".toList) :=
    String.toList_ofList.trans (List.append_assoc ..)
  have hopening : (regexSource pattern).toList.dropPrefix? "^(?:".toList =
      some (regexOf pattern.toList ++ ")$".toList) :=
    List.dropPrefix?_eq_some_iff.2 ⟨_, hsource, beq_self_eq_true _⟩
  have hclosing : (regexOf pattern.toList ++ ")$".toList).dropSuffix? ")$".toList =
      some (regexOf pattern.toList) :=
    List.dropSuffix?_eq_some_iff.2 ⟨_, rfl, beq_self_eq_true _⟩
  exact Option.bind_eq_some_iff.2 ⟨_, hopening, hclosing⟩

/-- A pattern is read back from its expression. -/
theorem readBack?_regexSource (pattern : String) : readBack? (regexSource pattern) = some pattern := by
  have hglyphs : (readParts (regexOf pattern.toList)).map RegexPart.glyph = pattern.toList :=
    List.forall₂_eq_eq_eq ▸
      List.forall₂_map_left_iff.2 ((forall₂_readParts pattern.toList).imp fun _ _ h => h.glyph_eq)
  rw [readBack?, unanchored?_regexSource, Option.map_some, hglyphs, String.ofList_toList]

/-- The anchored regular expression of a pattern says just what the pattern is: read from left to right,
without its anchors, it gives the pattern again, and no other pattern has it.  Its parts stand for the
characters of the pattern one by one, `.*` for each star and for nothing else, and every other character is
left where it is a literal. -/
theorem regexSource_unambiguous (pattern : String) :
    readBack? (regexSource pattern) = some pattern ∧
      (∀ other, regexSource other = regexSource pattern → other = pattern) ∧
      ∃ body, unanchored? (regexSource pattern) = some body ∧
        List.Forall₂ RegexPart.StandsFor (readParts body) pattern.toList := by
  refine ⟨readBack?_regexSource pattern, fun other h => ?_, _, unanchored?_regexSource pattern,
    forall₂_readParts pattern.toList⟩
  have hread := readBack?_regexSource other
  rw [h, readBack?_regexSource] at hread
  exact (Option.some.inj hread).symm

end NavPolicy.Pattern
