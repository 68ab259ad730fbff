import Mathlib.Data.List.TakeWhile
import NavPolicy.CommandLine.Console
import NavPolicy.Proofs.Text.Blank
import NavPolicy.Proofs.Text.Digits

/-!
# Lines that tell of navigations

A line is cut at its first blank character.  What stands before it has to spell a number within the bounds of
32 bits (`tab?_eq_some_iff`), and what stands after it has to leave a URL when its blank ends are cut.
Both parts are determined by the line, so that the navigation that is read off it is the one that it tells
of (`navigation?_eq_some_iff`).
-/

namespace NavPolicy.CommandLine

open NavPolicy.Text (isBlank IsTrimOf HasBareEnds readNat?_eq_some_iff)

/-! ## Numbers of tabs -/

/-- Whether a text consists of decimal digits, one at least. -/
def IsDecimal (ds : List Char) : Prop := ds ≠ [] ∧ ∀ c ∈ ds, c.isDigit = true

/-- Whether a text spells an integer: decimal digits, after a sign that may stand before them. -/
inductive SpellsInteger : List Char → Int → Prop
  | unsigned {ds : List Char} : IsDecimal ds → SpellsInteger ds (Nat.ofDigitChars 10 ds 0)
  | positive {ds : List Char} : IsDecimal ds → SpellsInteger ('+' :: ds) (Nat.ofDigitChars 10 ds 0)
  | negative {ds : List Char} : IsDecimal ds → SpellsInteger ('-' :: ds) (-Nat.ofDigitChars 10 ds 0)

/-- Whether an integer is the number of a tab, which has 32 bits and a sign. -/
def IsTab (v : Int) : Prop := -2147483648 ≤ v ∧ v ≤ 2147483647

/-- A number within a bound is read just from digits that spell it. -/
theorem readNat?_within_iff {ds : List Char} {p : Nat → Prop} [DecidablePred p] {f : Nat → Int32}
    {tab : Int32} :
    ((Text.readNat? ds).bind fun n => if p n then some (f n) else none) = some tab ↔
      IsDecimal ds ∧ p (Nat.ofDigitChars 10 ds 0) ∧ f (Nat.ofDigitChars 10 ds 0) = tab := by
  rw [Option.bind_eq_some_iff]
  constructor
  · rintro ⟨n, hn, h⟩
    obtain ⟨hne, hdigits, rfl⟩ := readNat?_eq_some_iff.1 hn
    split at h
    · rename_i hbound
      exact ⟨⟨hne, hdigits⟩, hbound, Option.some.inj h⟩
    · exact absurd h (by simp)
  · rintro ⟨hds, hbound, rfl⟩
    exact ⟨_, readNat?_eq_some_iff.2 ⟨hds.1, hds.2, rfl⟩, if_pos hbound⟩

/-- Digits do not start with a sign. -/
theorem IsDecimal.head_ne {ds : List Char} (h : IsDecimal ds) {c : Char} (hc : c.isDigit = false)
    (rest : List Char) : ds ≠ c :: rest := by
  rintro rfl
  exact absurd (h.2 c List.mem_cons_self) (by simp [hc])

/-- Digits without a sign are read by themselves. -/
theorem unsignedDigits_of_isDecimal {ds : List Char} (h : IsDecimal ds) : unsignedDigits ds = ds := by
  rw [unsignedDigits]
  exact fun rest => h.head_ne (by decide) rest

/-- A text spells the number of its digits without a plus. -/
theorem spellsInteger_unsignedDigits {cs : List Char} (h : IsDecimal (unsignedDigits cs)) :
    SpellsInteger cs (Nat.ofDigitChars 10 (unsignedDigits cs) 0) := by
  revert h
  rw [unsignedDigits.eq_def]
  split
  · exact .positive
  · exact .unsigned

/-- A text without a minus is a tab if its digits spell a number within the upper bound. -/
theorem tab?_of_ne_minus {cs : List Char} (h : ∀ ds, cs ≠ '-' :: ds) :
    tab? cs = (Text.readNat? (unsignedDigits cs)).bind fun n =>
      if n < 1 <<< 31 then some (.ofNat n) else none := by
  rw [tab?]
  exact h

/-- A text is read as a tab just when it spells a number of one. -/
theorem tab?_eq_some_iff {cs : List Char} {tab : Int32} :
    tab? cs = some tab ↔ ∃ v, SpellsInteger cs v ∧ IsTab v ∧ tab = .ofInt v := by
  constructor
  · intro h
    by_cases hminus : ∃ ds, cs = '-' :: ds
    · obtain ⟨ds, rfl⟩ := hminus
      rw [tab?, readNat?_within_iff] at h
      obtain ⟨hds, hbound, rfl⟩ := h
      exact ⟨_, .negative hds, ⟨by omega, by omega⟩, rfl⟩
    · rw [tab?_of_ne_minus fun ds hds => hminus ⟨ds, hds⟩, readNat?_within_iff] at h
      obtain ⟨hds, hbound, rfl⟩ := h
      exact ⟨_, spellsInteger_unsignedDigits hds, ⟨by omega, by omega⟩, Int32.ofInt_eq_ofNat.symm⟩
  · rintro ⟨v, hspells, ⟨hlower, hupper⟩, rfl⟩
    cases hspells with
    | unsigned hds =>
      rw [tab?_of_ne_minus (hds.head_ne (by decide)), readNat?_within_iff,
        unsignedDigits_of_isDecimal hds]
      exact ⟨hds, by omega, Int32.ofInt_eq_ofNat.symm⟩
    | positive hds =>
      rw [tab?_of_ne_minus (by simp), readNat?_within_iff]
      exact ⟨hds, by rw [unsignedDigits]; omega, Int32.ofInt_eq_ofNat.symm⟩
    | negative hds =>
      rw [tab?, readNat?_within_iff]
      exact ⟨hds, by omega, rfl⟩

/-- An integer is spelt by its decimal form. -/
theorem spellsInteger_toString (v : Int) : SpellsInteger (toString v).toList v := by
  have hdecimal (n : Nat) : IsDecimal (Text.natDigits n) :=
    ⟨Text.natDigits_ne_nil n, fun _ hc => Text.isDigit_of_mem_natDigits hc⟩
  have hvalue (n : Nat) : Nat.ofDigitChars 10 (Text.natDigits n) 0 = n :=
    Nat.ofDigitChars_toDigits (by decide) (by decide)
  rw [Int.toString_eq_repr]
  cases v with
  | ofNat n =>
    have htext : (Int.repr (.ofNat n)).toList = Text.natDigits n := by
      rw [Int.repr, Nat.toList_repr, Text.natDigits]
    have hspells := SpellsInteger.unsigned (hdecimal n)
    rwa [hvalue, ← htext] at hspells
  | negSucc n =>
    have htext : (Int.repr (.negSucc n)).toList = '-' :: Text.natDigits (n + 1) := by
      rw [Int.repr, String.toList_append, Nat.toList_repr, Text.natDigits]
      rfl
    have hspells := SpellsInteger.negative (hdecimal (n + 1))
    rwa [hvalue, ← htext] at hspells

/-- No blank character is part of a text that spells an integer. -/
theorem SpellsInteger.isBlank_eq_false {cs : List Char} {v : Int} (h : SpellsInteger cs v) :
    ∀ c ∈ cs, isBlank c = false := by
  have hdigits {ds : List Char} (hds : IsDecimal ds) : ∀ c ∈ ds, isBlank c = false := fun c hc =>
    Text.isBlank_of_isDigit (hds.2 c hc)
  cases h with
  | unsigned hds => exact hdigits hds
  | positive hds => exact List.forall_mem_cons.2 ⟨by decide, hdigits hds⟩
  | negative hds => exact List.forall_mem_cons.2 ⟨by decide, hdigits hds⟩

/-- A text that spells an integer has a character. -/
theorem SpellsInteger.ne_nil {cs : List Char} {v : Int} (h : SpellsInteger cs v) : cs ≠ [] := by
  cases h with
  | unsigned hds => exact hds.1
  | positive => exact List.cons_ne_nil _ _
  | negative => exact List.cons_ne_nil _ _

/-! ## Lines -/

/-- Whether a line tells of a navigation: a text that spells the number of a tab, a blank character, which is
the first one of the line, and after it a text that is not all blank and has the URL between its blank
ends. -/
def TellsOf (line : List Char) (tab : Int) (url : List Char) : Prop :=
  ∃ before blank after, line = before ++ blank :: after ∧ (∀ c ∈ before, isBlank c = false) ∧
    isBlank blank = true ∧ SpellsInteger before tab ∧ (∃ c ∈ after, isBlank c = false) ∧
    IsTrimOf url after

/-- A line with a blank character is cut at the first one. -/
theorem cut_at_blank_iff {line before after : List Char} {blank : Char} :
    (line.takeWhile (!isBlank ·) = before ∧ line.dropWhile (!isBlank ·) = blank :: after) ↔
      line = before ++ blank :: after ∧ (∀ c ∈ before, isBlank c = false) ∧ isBlank blank = true := by
  constructor
  · rintro ⟨rfl, hafter⟩
    refine ⟨by rw [← hafter, List.takeWhile_append_dropWhile], fun c hc => ?_, ?_⟩
    · simpa using List.mem_takeWhile_imp hc
    · have hnot := List.head?_dropWhile_not (!isBlank ·) line
      rw [hafter, List.head?_cons] at hnot
      simpa using hnot
  · rintro ⟨rfl, hbefore, hblank⟩
    have hbare : ∀ c ∈ before, (!isBlank c) = true := fun c hc => by simp [hbefore c hc]
    rw [List.takeWhile_append_of_pos hbare, List.dropWhile_append_of_pos hbare,
      List.takeWhile_cons_of_neg (by simp [hblank]), List.dropWhile_cons_of_neg (by simp [hblank])]
    exact ⟨List.append_nil before, rfl⟩

/-- A navigation is read off a line just when the line tells of it. -/
theorem navigation?_eq_some_iff {line : String} {n : Navigation} :
    navigation? line = some n ↔ ∃ v url, TellsOf line.toList v url ∧ IsTab v ∧
      n = .loading (.ofInt v) (String.ofList url) := by
  have hnil {after : List Char} : (Text.trim after).isEmpty = false ↔ ∃ c ∈ after, isBlank c = false := by
    rw [← Bool.not_eq_true, List.isEmpty_iff, Text.trim_eq_nil_iff]
    simp
  constructor
  · intro h
    simp only [navigation?] at h
    split at h
    · exact absurd h (by simp)
    · rename_i blank after hafter
      split at h
      · exact absurd h (by simp)
      · rename_i hurl
        obtain ⟨tab, htab, rfl⟩ := Option.map_eq_some_iff.1 h
        obtain ⟨v, hspells, hv, rfl⟩ := tab?_eq_some_iff.1 htab
        obtain ⟨hline, hbefore, hblank⟩ := cut_at_blank_iff.1 ⟨rfl, hafter⟩
        exact ⟨v, _, ⟨_, blank, after, hline, hbefore, hblank, hspells,
          hnil.1 (Bool.not_eq_true _ ▸ hurl), Text.trim_eq_iff.1 rfl⟩, hv, rfl⟩
  · rintro ⟨v, url, ⟨before, blank, after, hline, hbefore, hblank, hspells, hafter, hurl⟩, hv, rfl⟩
    obtain ⟨htake, hdrop⟩ := cut_at_blank_iff.2 ⟨hline, hbefore, hblank⟩
    have htab : tab? before = some (.ofInt v) := tab?_eq_some_iff.2 ⟨v, hspells, hv, rfl⟩
    have htrim : Text.trim after = url := Text.trim_eq_iff.2 hurl
    have hne : url.isEmpty = false := htrim ▸ hnil.2 hafter
    simp only [navigation?, hdrop, htake, htrim, hne, htab]
    rfl

/-- A line at the console asks for a navigation just when one is read off it, blanks at its ends apart. -/
theorem ofText_eq_navigate_iff {line : String} {n : Navigation} :
    Line.ofText line = .command (.navigate n) ↔
      navigation? (String.ofList (Text.trim line.toList)) = some n := by
  rw [Line.ofText]
  split
  case h_6 =>
    cases navigation? (String.ofList (Text.trim line.toList)) with
    | none => simp
    | some m => simp
  -- the words of the console have no blank character, so that none of them tells of a navigation
  all_goals
    rename_i hword
    have hnone : ∀ word ∈ ["", "quit", "exit", "refresh", "status"], navigation? word = none := by
      decide
    rw [hword, hnone _ (by simp)]
    simp

/-! ## Lines that are written -/

section Written

variable {gap url : List Char}

/-- A number, blank characters and a URL with bare ends tell of the navigation to the URL. -/
theorem tellsOf_decimal (v : Int) (hgap : gap ≠ []) (hblank : ∀ c ∈ gap, isBlank c = true)
    (hurl : url ≠ []) (hbare : HasBareEnds url) : TellsOf ((toString v).toList ++ gap ++ url) v url := by
  obtain ⟨blank, gap, rfl⟩ := List.exists_cons_of_ne_nil hgap
  obtain ⟨hfirst, hrest⟩ := List.forall_mem_cons.1 hblank
  have hspells := spellsInteger_toString v
  refine ⟨_, blank, gap ++ url, List.append_assoc .., hspells.isBlank_eq_false, hfirst, hspells, ?_,
    hbare, gap, [], by rw [List.append_nil], hrest, by simp⟩
  obtain ⟨c, cs, rfl⟩ := List.exists_cons_of_ne_nil hurl
  exact ⟨c, by simp, hbare.1 c rfl⟩

/-- A line that starts with a number and ends with a URL with bare ends has bare ends itself. -/
theorem hasBareEnds_decimal (v : Int) (hurl : url ≠ []) (hbare : HasBareEnds url) :
    HasBareEnds ((toString v).toList ++ gap ++ url) := by
  have hspells := spellsInteger_toString v
  constructor
  · intro c hc
    refine hspells.isBlank_eq_false c (List.mem_of_mem_head? ?_)
    rwa [List.append_assoc, List.head?_append_of_ne_nil _ hspells.ne_nil] at hc
  · intro c hc
    rw [List.getLast?_append_of_ne_nil _ hurl] at hc
    exact hbare.2 c hc

end Written

/-- A navigation is read off a line just when the line tells of it: the number of a tab, within the bounds of
32 bits and with a sign or without, a blank character, and a text that is not all blank, from which the blank
ends are cut.  At the console the blank ends of the whole line are cut first.  So the number of any tab in
decimal form, any blank characters and any URL with bare ends give the tab and the URL again, with blank
characters around them or without. -/
theorem navigation_lines_read :
    (∀ (line : String) (n : Navigation),
      (navigation? line = some n ↔ ∃ v url, TellsOf line.toList v url ∧ IsTab v ∧
        n = .loading (.ofInt v) (String.ofList url)) ∧
      (Line.ofText line = .command (.navigate n) ↔
        navigation? (String.ofList (Text.trim line.toList)) = some n)) ∧
      ∀ (tab : Int32) (gap url : List Char), gap ≠ [] → (∀ c ∈ gap, isBlank c = true) → url ≠ [] →
        HasBareEnds url → ∀ lead trail : List Char, (∀ c ∈ lead ++ trail, isBlank c = true) →
          let line := (toString tab.toInt).toList ++ gap ++ url
          navigation? (String.ofList line) = some (.loading tab (String.ofList url)) ∧
            Line.ofText (String.ofList (lead ++ line ++ trail)) =
              .command (.navigate (.loading tab (String.ofList url))) := by
  refine ⟨fun line n => ⟨navigation?_eq_some_iff, ofText_eq_navigate_iff⟩, ?_⟩
  intro tab gap url hgap hblank hurl hbare lead trail haround line
  have htab : IsTab tab.toInt := ⟨tab.le_toInt, Int.le_sub_one_of_lt tab.toInt_lt⟩
  have hread : navigation? (String.ofList line) = some (.loading tab (String.ofList url)) := by
    refine navigation?_eq_some_iff.2 ⟨tab.toInt, url, ?_, htab, by rw [Int32.ofInt_toInt]⟩
    rw [String.toList_ofList]
    exact tellsOf_decimal _ hgap hblank hurl hbare
  have htrim : Text.trim (lead ++ line ++ trail) = line :=
    Text.trim_eq_iff.2 ⟨hasBareEnds_decimal _ hurl hbare, lead, trail, rfl,
      List.forall_mem_append.1 haround⟩
  refine ⟨hread, ofText_eq_navigate_iff.2 ?_⟩
  rw [String.toList_ofList, htrim]
  exact hread

/-- The least number of a tab is read, after blanks, and a blank inside the URL is part of it. -/
theorem navigation_lines_read_least :
    let gap := ['\t', '\u3000']
    let url := "https://a.example/x y".toList
    gap ≠ [] ∧ (∀ c ∈ gap, isBlank c = true) ∧ url ≠ [] ∧ HasBareEnds url ∧
      (∀ c ∈ [' '] ++ ['\r'], isBlank c = true) ∧
      Line.ofText " -2147483648\t\u3000https://a.example/x y\r" =
        .command (.navigate (.loading (-2147483648) "https://a.example/x y")) ∧
      navigation? "-2147483649 https://a.example/x y" = none := by
  intro gap url
  have hgap : gap ≠ [] ∧ ∀ c ∈ gap, isBlank c = true :=
    ⟨List.cons_ne_nil _ _, List.all_eq_true.1 (by decide)⟩
  have hurl : url ≠ [] ∧ HasBareEnds url := by decide
  have haround : ∀ c ∈ [' '] ++ ['\r'], isBlank c = true := List.all_eq_true.1 (by decide)
  have hline : String.ofList ([' '] ++ ((toString (Int32.toInt (-2147483648))).toList ++ gap ++ url) ++
      ['\r']) = " -2147483648\t\u3000https://a.example/x y\r" := by decide +kernel
  have hurlText : String.ofList url = "https://a.example/x y" := String.ofList_toList
  have hread := (navigation_lines_read.2 (-2147483648) gap url hgap.1 hgap.2 hurl.1 hurl.2 [' '] ['\r']
    haround).2
  rw [hline, hurlText] at hread
  exact ⟨hgap.1, hgap.2, hurl.1, hurl.2, haround, hread, by decide⟩

end NavPolicy.CommandLine
