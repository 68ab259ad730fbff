import NavPolicy.Pattern
import Mathlib.Data.List.Perm.Basic

/-!
# What wildcard patterns match

`Pattern.Denotes` says what a pattern means, one character of the pattern at a time and without any
search: a star stands for any run of characters other than a newline, and every other character for
itself.  The matcher never looks back, and yet it finds a match whenever there is one
(`accepts_iff_denotes`).

## Why the first occurrence is enough

A run may occur again further on.  What stands between the end of its first occurrence and the end of a
later one is a rearrangement of what the gap before the later one has more than the gap before the first
(`exists_afterGap?`).  So it has no newline either, and the next gap can take it in.
-/

namespace NavPolicy.Pattern

/-- The texts that a pattern stands for. -/
inductive Denotes : List Char → List Char → Prop
  /-- The empty pattern stands for the empty text. -/
  | nil : Denotes [] []
  /-- A star stands for a run of characters other than a newline. -/
  | star {pattern text : List Char} (gap : List Char) :
      '\n' ∉ gap → Denotes pattern text → Denotes ('*' :: pattern) (gap ++ text)
  /-- Every other character stands for itself. -/
  | literal {pattern text : List Char} (c : Char) :
      c ≠ '*' → Denotes pattern text → Denotes (c :: pattern) (c :: text)

/-- The runs of a list fill a text in order, each after a gap without newline. -/
inductive Spread : List (List Char) → List Char → Prop
  /-- Without runs there is no text. -/
  | nil : Spread [] []
  /-- A gap, the first run, and what the others fill. -/
  | cons {runs : List (List Char)} {text : List Char} (gap run : List Char) :
      '\n' ∉ gap → Spread runs text → Spread (run :: runs) (gap ++ (run ++ text))

/-! ## Patterns split at their stars -/

/-- A star ends the first run. -/
theorem splitAtStars_star (pattern : List Char) :
    splitAtStars ('*' :: pattern) = ([], (splitAtStars pattern).1 :: (splitAtStars pattern).2) := by
  rw [splitAtStars]
  exact if_pos rfl

/-- Every other character belongs to the first run. -/
theorem splitAtStars_literal {c : Char} (hc : c ≠ '*') (pattern : List Char) :
    splitAtStars (c :: pattern) = (c :: (splitAtStars pattern).1, (splitAtStars pattern).2) := by
  rw [splitAtStars]
  exact if_neg hc

/-- A pattern stands for its first run followed by what the runs after its stars fill. -/
theorem denotes_iff_spread (pattern url : List Char) :
    Denotes pattern url ↔
      ∃ text, url = (splitAtStars pattern).1 ++ text ∧ Spread (splitAtStars pattern).2 text := by
  constructor
  · intro h
    induction h with
    | nil => exact ⟨[], rfl, .nil⟩
    | star gap hgap _ ih =>
      obtain ⟨text, rfl, htext⟩ := ih
      rw [splitAtStars_star]
      exact ⟨_, rfl, .cons gap _ hgap htext⟩
    | literal c hc _ ih =>
      obtain ⟨text, rfl, htext⟩ := ih
      rw [splitAtStars_literal hc]
      exact ⟨text, rfl, htext⟩
  · rintro ⟨text, rfl, htext⟩
    induction pattern generalizing text with
    | nil =>
      cases htext
      exact .nil
    | cons c pattern ih =>
      by_cases hc : c = '*'
      · subst hc
        rw [splitAtStars_star] at htext ⊢
        cases htext with
        | cons gap _ hgap hrest => exact .star gap hgap (ih _ hrest)
      · rw [splitAtStars_literal hc] at htext ⊢
        exact .literal c hc (ih text htext)

/-! ## Runs and gaps -/

/-- What follows a run is what is left of a text that begins with it. -/
theorem afterRun?_eq_some {run text rest : List Char} :
    afterRun? run text = some rest ↔ text = run ++ rest := by
  induction run generalizing text with
  | nil => simp [afterRun?]
  | cons c run ih =>
    cases text with
    | nil => simp [afterRun?]
    | cons d text =>
      by_cases h : c = d
      · subst h
        simp [afterRun?, ih]
      · simp [afterRun?, h, Ne.symm h]

/-- What follows a gap and a run does stand there. -/
theorem eq_of_afterGap? {run text rest : List Char} (h : afterGap? run text = some rest) :
    ∃ gap, '\n' ∉ gap ∧ text = gap ++ (run ++ rest) := by
  induction text with
  | nil =>
    rw [afterGap?, afterRun?_eq_some] at h
    exact ⟨[], List.not_mem_nil, h⟩
  | cons c text ih =>
    rw [afterGap?] at h
    split at h
    · next after hafter =>
      obtain rfl := Option.some.inj h
      rw [afterRun?_eq_some] at hafter
      exact ⟨[], List.not_mem_nil, hafter⟩
    · split_ifs at h with hc
      obtain ⟨gap, hgap, rfl⟩ := ih h
      exact ⟨c :: gap, by simp [hgap, Ne.symm hc], rfl⟩

/-- A gap and a run that stand somewhere are found, and the gap found is no longer. -/
theorem afterGap?_of_eq {run text rest : List Char} (gap : List Char) (hgap : '\n' ∉ gap)
    (h : text = gap ++ (run ++ rest)) :
    ∃ first after, first.length ≤ gap.length ∧ text = first ++ (run ++ after) ∧
      afterGap? run text = some after := by
  induction gap generalizing text with
  | nil =>
    have hrun : afterRun? run text = some rest := afterRun?_eq_some.2 h
    refine ⟨[], rest, Nat.le_refl 0, h, ?_⟩
    cases text with
    | nil => exact hrun
    | cons c text => rw [afterGap?, hrun]
  | cons c gap ih =>
    rw [List.mem_cons, not_or] at hgap
    obtain ⟨first, after, hlength, heq, hafter⟩ := ih hgap.2 (Eq.refl (gap ++ (run ++ rest)))
    subst h
    rw [List.cons_append, afterGap?]
    cases hhere : afterRun? run (c :: (gap ++ (run ++ rest))) with
    | some after =>
      rw [afterRun?_eq_some] at hhere
      exact ⟨[], after, Nat.zero_le _, hhere, rfl⟩
    | none =>
      refine ⟨c :: first, after, Nat.succ_le_succ hlength, congrArg (c :: ·) heq, ?_⟩
      rw [if_neg (Ne.symm hgap.1)]
      exact hafter

/-- Where a run stands after a gap, the matcher finds it no later: between the end of the occurrence
that it finds and the end of the given one there is no newline. -/
theorem exists_afterGap? (run rest gap : List Char) (hgap : '\n' ∉ gap) :
    ∃ between, '\n' ∉ between ∧ afterGap? run (gap ++ (run ++ rest)) = some (between ++ rest) := by
  obtain ⟨first, after, hlength, heq, hafter⟩ :=
    afterGap?_of_eq gap hgap (Eq.refl (gap ++ (run ++ rest)))
  -- the longer gap is the shorter one and some more
  obtain ⟨more, rfl⟩ : first <+: gap := by
    refine List.prefix_of_prefix_length_le ?_ (List.prefix_append gap (run ++ rest)) hlength
    rw [heq]
    exact List.prefix_append _ _
  have hmore : more ++ (run ++ rest) = run ++ after := by
    rw [List.append_assoc] at heq
    exact List.append_cancel_left heq
  -- what follows the first occurrence ends with what follows the given one
  obtain ⟨between, rfl⟩ : rest <:+ after := by
    have hrest : rest <:+ run ++ after := by
      rw [← hmore, ← List.append_assoc]
      exact List.suffix_append _ _
    refine List.suffix_of_suffix_length_le hrest (List.suffix_append _ _) ?_
    have hlen := congrArg List.length hmore
    simp only [List.length_append] at hlen
    omega
  -- both complete the run to the same text, so they have the same characters
  have hperm : between.Perm more := by
    have hcancel : more ++ run = run ++ between := by
      rw [← List.append_left_inj rest, List.append_assoc, List.append_assoc, hmore]
    refine (List.perm_append_left_iff run).1 ?_
    rw [← hcancel]
    exact List.perm_append_comm
  refine ⟨between, fun hmem => hgap ?_, hafter⟩
  exact List.mem_append.2 (.inr (hperm.mem_iff.1 hmem))

/-- The last run ends a text after a gap. -/
theorem endsAfterGap_iff (run text : List Char) :
    endsAfterGap run text = true ↔ Spread [run] text := by
  rw [endsAfterGap, Bool.and_eq_true, List.isSuffixOf_iff_suffix]
  constructor
  · rintro ⟨⟨gap, rfl⟩, hgap⟩
    have hmem : '\n' ∉ gap := by
      rw [List.length_append, Nat.add_sub_cancel, List.take_left, List.all_eq_true] at hgap
      exact fun hmem => absurd (hgap _ hmem) (by decide)
    have hspread := Spread.cons gap run hmem .nil
    rwa [List.append_nil] at hspread
  · rintro (_ | ⟨gap, _, hgap, hrest⟩)
    cases hrest
    rw [List.append_nil]
    refine ⟨List.suffix_append gap run, ?_⟩
    rw [List.length_append, Nat.add_sub_cancel, List.take_left, List.all_eq_true]
    intro c hc
    rw [decide_eq_true_iff]
    rintro rfl
    exact hgap hc

/-- A gap before a spread text may be made longer. -/
theorem Spread.append {runs : List (List Char)} {text : List Char} (h : Spread runs text)
    (hruns : runs ≠ []) (between : List Char) (hbetween : '\n' ∉ between) :
    Spread runs (between ++ text) := by
  cases h with
  | nil => exact absurd rfl hruns
  | cons gap run hgap hrest =>
    rw [← List.append_assoc]
    refine .cons (between ++ gap) run ?_ hrest
    rw [List.mem_append, not_or]
    exact ⟨hbetween, hgap⟩

/-! ## The matcher -/

/-- The runs are matched exactly where they fill the text. -/
theorem matchRuns_iff (last : List Char) (runs : List (List Char)) (text : List Char) :
    matchRuns last runs text = true ↔ Spread (runs ++ [last]) text := by
  induction runs generalizing text with
  | nil => exact endsAfterGap_iff last text
  | cons run runs ih =>
    rw [matchRuns, List.cons_append]
    constructor
    · intro h
      split at h
      · next rest hrest =>
        obtain ⟨gap, hgap, rfl⟩ := eq_of_afterGap? hrest
        exact .cons gap run hgap ((ih rest).1 h)
      · exact absurd h Bool.false_ne_true
    · rintro (_ | ⟨gap, _, hgap, hrest⟩)
      -- the run may be found earlier than it stands; the next gap takes in what lies between
      obtain ⟨between, hbetween, hfound⟩ := exists_afterGap? run _ gap hgap
      rw [hfound]
      exact (ih _).2 (hrest.append (by simp) between hbetween)

/-- A pattern that is split at its stars matches just the texts that it stands for. -/
theorem matchSplit_iff_denotes (pattern url : List Char) :
    matchSplit (splitAtStars pattern).1 (splitAtStars pattern).2 url = true ↔
      Denotes pattern url := by
  rw [denotes_iff_spread, matchSplit]
  generalize (splitAtStars pattern).1 = first
  rcases List.eq_nil_or_concat (splitAtStars pattern).2 with h | ⟨runs, last, h⟩
  · rw [h, List.getLast?_nil, decide_eq_true_iff]
    constructor
    · rintro rfl
      exact ⟨[], (List.append_nil _).symm, .nil⟩
    · rintro ⟨text, heq, htext⟩
      cases htext
      rw [heq, List.append_nil]
  · rw [h, List.concat_eq_append, List.getLast?_concat, List.dropLast_concat]
    dsimp only
    constructor
    · intro h
      split at h
      · next rest hrest => exact ⟨rest, afterRun?_eq_some.1 hrest, (matchRuns_iff ..).1 h⟩
      · exact absurd h Bool.false_ne_true
    · rintro ⟨text, heq, htext⟩
      rw [afterRun?_eq_some.2 heq]
      exact (matchRuns_iff ..).2 htext

instance (pattern url : List Char) : Decidable (Denotes pattern url) :=
  decidable_of_iff _ (matchSplit_iff_denotes pattern url)

/-- A pattern matches a URL from start to end exactly when it stands for it. -/
theorem accepts_iff_denotes (p : Pattern) (url : String) :
    p.accepts url = true ↔ Denotes p.source.toList url.toList := matchSplit_iff_denotes ..

end NavPolicy.Pattern
