import Mathlib.Data.List.Basic
import Mathlib.Data.List.TakeWhile
import NavPolicy.Text.Blank

/-!
# Texts with blank ends

A text is cut down to what stands between the blank characters at its ends (`trim_eq_iff`), which is
nothing just where the whole text is blank (`trim_eq_nil_iff`).  Digits are never cut.
-/

namespace NavPolicy.Text

theorem toNat_of_isDigit {c : Char} (h : c.isDigit = true) : 0x30 ≤ c.toNat ∧ c.toNat ≤ 0x39 := by
  simp only [Char.isDigit, Bool.and_eq_true, decide_eq_true_eq, ge_iff_le, UInt32.le_iff_toNat_le] at h
  exact h

/-- No digit is blank. -/
theorem isBlank_of_isDigit {c : Char} (h : c.isDigit = true) : isBlank c = false := by
  obtain ⟨hlower, hupper⟩ := toNat_of_isDigit h
  rw [isBlank, List.any_eq_false]
  simp only [blankRanges, List.mem_cons, List.not_mem_nil, or_false]
  rintro range hrange
  simp only [Bool.and_eq_true, decide_eq_true_eq]
  rcases hrange with rfl | rfl | rfl | rfl | rfl | rfl | rfl | rfl | rfl | rfl <;> dsimp only <;> omega

/-! ## Blank ends -/

/-- Whether neither the first nor the last character of a text is blank. -/
def HasBareEnds (cs : List Char) : Prop :=
  (∀ c ∈ cs.head?, isBlank c = false) ∧ ∀ c ∈ cs.getLast?, isBlank c = false

instance (cs : List Char) : Decidable (HasBareEnds cs) :=
  decidable_of_iff (cs.head?.all (fun c => !isBlank c) && cs.getLast?.all fun c => !isBlank c)
    (by simp [HasBareEnds, Option.all_eq_true])

/-- Whether a text has bare ends and stands in another one with nothing but blank characters around it. -/
def IsTrimOf (inner text : List Char) : Prop :=
  HasBareEnds inner ∧ ∃ lead trail, text = lead ++ inner ++ trail ∧
    (∀ c ∈ lead, isBlank c = true) ∧ ∀ c ∈ trail, isBlank c = true

/-- Cutting the blank characters from the ends leaves nothing just of a blank text. -/
theorem trim_eq_nil_iff {cs : List Char} : trim cs = [] ↔ ∀ c ∈ cs, isBlank c = true := by
  have hall : ∀ ds : List Char, ds.dropWhile isBlank = [] ↔ ∀ c ∈ ds, isBlank c = true :=
    fun ds => List.dropWhile_eq_nil_iff
  rw [trim, trimEnd, List.reverse_eq_nil_iff, hall, trimStart]
  simp only [List.mem_reverse]
  constructor
  · intro h c hc
    rw [← List.takeWhile_append_dropWhile (p := isBlank) (l := cs), List.mem_append] at hc
    rcases hc with hc | hc
    · exact List.mem_takeWhile_imp hc
    · exact h c hc
  · exact fun h c hc => h c (List.dropWhile_subset isBlank hc)

/-- What is left after blank characters starts with none. -/
theorem head?_trimStart {cs : List Char} : ∀ c ∈ (trimStart cs).head?, isBlank c = false := by
  intro c hc
  have hnot := List.head?_dropWhile_not isBlank cs
  rw [trimStart] at hc
  rw [Option.mem_def.1 hc] at hnot
  simpa using hnot

/-- Nothing is cut from the start of a text that starts with no blank character. -/
theorem trimStart_eq_self {cs : List Char} (h : ∀ c ∈ cs.head?, isBlank c = false) :
    trimStart cs = cs := by
  cases cs with
  | nil => rfl
  | cons c cs => exact List.dropWhile_cons_of_neg (by simp [h c rfl])

/-- Blank characters before a text are cut. -/
theorem trimStart_append {lead cs : List Char} (h : ∀ c ∈ lead, isBlank c = true) :
    trimStart (lead ++ cs) = trimStart cs := List.dropWhile_append_of_pos h

/-- Cutting the end is cutting the start of the reverse. -/
theorem reverse_trimEnd (cs : List Char) : (trimEnd cs).reverse = trimStart cs.reverse := by
  rw [trimEnd, List.reverse_reverse, trimStart]

/-- What is cut from the end is blank. -/
theorem exists_eq_trimEnd_append (cs : List Char) :
    ∃ trail, cs = trimEnd cs ++ trail ∧ ∀ c ∈ trail, isBlank c = true := by
  refine ⟨(cs.reverse.takeWhile isBlank).reverse, ?_, fun c hc => ?_⟩
  · rw [trimEnd, ← List.reverse_append, List.takeWhile_append_dropWhile, List.reverse_reverse]
  · exact List.mem_takeWhile_imp (List.mem_reverse.1 hc)

/-- What is left between blank characters has bare ends. -/
theorem hasBareEnds_trim (cs : List Char) : HasBareEnds (trim cs) := by
  constructor
  · intro c hc
    obtain ⟨trail, htrail, -⟩ := exists_eq_trimEnd_append (trimStart cs)
    -- the first character of what is left is the first after the blank start
    have hhead : c ∈ (trimStart cs).head? := by
      rw [htrail]
      exact List.mem_head?_append_of_mem_head? hc
    exact head?_trimStart c hhead
  · intro c hc
    rw [← List.head?_reverse, trim, reverse_trimEnd] at hc
    exact head?_trimStart c hc

/-- Cutting a text at its ends leaves what has bare ends and nothing but blank characters around it. -/
theorem trim_eq_iff {text inner : List Char} : trim text = inner ↔ IsTrimOf inner text := by
  constructor
  · rintro rfl
    obtain ⟨trail, htrail, hblank⟩ := exists_eq_trimEnd_append (trimStart text)
    refine ⟨hasBareEnds_trim text, text.takeWhile isBlank, trail, ?_,
      fun c hc => List.mem_takeWhile_imp hc, hblank⟩
    rw [List.append_assoc, trim, ← htrail, trimStart, List.takeWhile_append_dropWhile]
  · rintro ⟨hbare, lead, trail, rfl, hlead, htrail⟩
    cases inner with
    | nil =>
      rw [List.append_nil, trim_eq_nil_iff]
      exact List.forall_mem_append.2 ⟨hlead, htrail⟩
    | cons d ds =>
      have hstart : trimStart (lead ++ (d :: ds) ++ trail) = (d :: ds) ++ trail := by
        rw [List.append_assoc, trimStart_append hlead]
        exact trimStart_eq_self hbare.1
      have hend : trimStart (trail.reverse ++ (d :: ds).reverse) = (d :: ds).reverse := by
        rw [trimStart_append fun c hc => htrail c (List.mem_reverse.1 hc)]
        refine trimStart_eq_self fun c hc => hbare.2 c ?_
        rwa [List.head?_reverse] at hc
      rw [trim, hstart, ← List.reverse_reverse (trimEnd _), reverse_trimEnd, List.reverse_append, hend,
        List.reverse_reverse]

end NavPolicy.Text
