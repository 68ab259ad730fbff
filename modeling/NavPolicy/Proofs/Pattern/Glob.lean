import Mathlib.Data.List.Basic
import NavPolicy.Proofs.Pattern.Regex

/-!
# Patterns as literals with gaps

Split at its stars, a pattern is a list of literals.  It matches a URL just when the URL is these literals
with a gap between each two, none of which has a newline (`compile_matches_globs`).
-/

namespace NavPolicy.Pattern

/-- Whether a text is some literals, one after the other, with a gap without newline between each two. -/
def Interlaced (literals : List (List Char)) (text : List Char) : Prop :=
  ∃ first rest gaps, literals = first :: rest ∧ gaps.length = rest.length ∧
    (∀ gap ∈ gaps, '\n' ∉ gap) ∧ text = first ++ (List.zipWith (· ++ ·) gaps rest).flatten

/-- Splitting a pattern at its stars gives its first run and the runs after each star. -/
theorem splitOn_star (pattern : List Char) :
    pattern.splitOn '*' = (splitAtStars pattern).1 :: (splitAtStars pattern).2 := by
  induction pattern with
  | nil => rfl
  | cons c pattern ih =>
    rw [List.splitOn_cons_eq_if_modifyHead, ih]
    by_cases hc : c = '*'
    · subst hc
      rw [splitAtStars_star]
      rfl
    · rw [if_neg (by simpa using hc), splitAtStars_literal hc]
      rfl

/-- Runs fill a text just when there are gaps to go before each of them. -/
theorem spread_iff_exists_gaps {runs : List (List Char)} {text : List Char} :
    Spread runs text ↔ ∃ gaps, gaps.length = runs.length ∧ (∀ gap ∈ gaps, '\n' ∉ gap) ∧
      text = (List.zipWith (· ++ ·) gaps runs).flatten := by
  constructor
  · intro h
    induction h with
    | nil => exact ⟨[], rfl, by simp, rfl⟩
    | cons gap run hgap _ ih =>
      obtain ⟨gaps, hlength, hgaps, rfl⟩ := ih
      refine ⟨gap :: gaps, congrArg (· + 1) hlength, List.forall_mem_cons.2 ⟨hgap, hgaps⟩, ?_⟩
      rw [List.zipWith_cons_cons, List.flatten_cons, List.append_assoc]
  · rintro ⟨gaps, hlength, hgaps, rfl⟩
    induction runs generalizing gaps with
    | nil =>
      obtain rfl := List.length_eq_zero_iff.1 hlength
      exact .nil
    | cons run runs ih =>
      cases gaps with
      | nil => exact absurd hlength (by simp)
      | cons gap gaps =>
        rw [List.forall_mem_cons] at hgaps
        rw [List.zipWith_cons_cons, List.flatten_cons, List.append_assoc]
        exact .cons gap run hgaps.1 (ih gaps (Nat.succ.inj hlength) hgaps.2)

/-- A pattern stands for the texts in which its literals are interlaced with gaps. -/
theorem denotes_iff_interlaced (pattern url : List Char) :
    Denotes pattern url ↔ Interlaced (pattern.splitOn '*') url := by
  rw [denotes_iff_spread, splitOn_star]
  constructor
  · rintro ⟨text, rfl, htext⟩
    obtain ⟨gaps, hlength, hgaps, rfl⟩ := spread_iff_exists_gaps.1 htext
    exact ⟨_, _, gaps, rfl, hlength, hgaps, rfl⟩
  · rintro ⟨first, rest, gaps, hsplit, hlength, hgaps, rfl⟩
    obtain ⟨rfl, rfl⟩ := List.cons.inj hsplit
    exact ⟨_, rfl, spread_iff_exists_gaps.2 ⟨gaps, hlength, hgaps, rfl⟩⟩

/-- Every text of at most 8192 bytes is a pattern.  It matches a URL just when the URL is the literals
between its stars with a gap for each star, and its anchored regular expression stands for the same URLs.
Every longer text is refused with the number of its bytes. -/
theorem compile_matches_globs (source : String) :
    (source.utf8ByteSize ≤ 8192 → ∃ p : Pattern, compile source = .ok p ∧ p.source = source ∧
      ∀ url : String,
        (p.accepts url = true ↔ Interlaced (source.toList.splitOn '*') url.toList) ∧
          (p.accepts url = true ↔ AnchoredDenotes (regexSource source) url.toList)) ∧
      (8192 < source.utf8ByteSize → compile source = .error (.tooLong source.utf8ByteSize)) := by
  refine ⟨fun hsize => ?_, fun hsize => ?_⟩
  · refine ⟨⟨source, hsize⟩, dif_pos hsize, rfl, fun url => ⟨?_, ?_⟩⟩
    · rw [accepts_iff_denotes, denotes_iff_interlaced]
    · rw [accepts_iff_denotes, anchoredDenotes_regexSource_iff]
  · exact dif_neg (Nat.not_le.2 hsize)

/-- A dot stands for itself and a star for a gap, at the end of the URL as anywhere else. -/
theorem compile_matches_globs_with_dot :
    ∃ p : Pattern, compile "a.b*c*" = .ok p ∧ p.accepts "a.bxcc" = true ∧
      p.accepts "axbxc" = false ∧ Interlaced [['a', '.', 'b'], ['c'], []] "a.bxcc".toList := by
  obtain ⟨p, hp, hsource, hmatches⟩ := (compile_matches_globs "a.b*c*").1 (by decide)
  obtain rfl : p = ⟨"a.b*c*", by decide⟩ := Except.ok.inj (hp.symm.trans (dif_pos (by decide)))
  refine ⟨_, hp, by decide, by decide, ?_⟩
  have hsplit : "a.b*c*".toList.splitOn '*' = [['a', '.', 'b'], ['c'], []] := by decide
  rw [← hsplit]
  exact ((hmatches "a.bxcc").1).1 (by decide)

end NavPolicy.Pattern
