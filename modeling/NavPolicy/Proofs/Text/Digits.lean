import Mathlib.Algebra.Group.Nat.Defs
import Mathlib.Data.List.Induction
import NavPolicy.Text.Digits

/-!
# Written numbers are read back

The decimal digits of a number spell the number (`readNat?_natDigits`), are digits, and start with a
zero only where the number is zero.  Zeros in front up to a width change nothing of what is spelt
(`readNat?_paddedDigits`).  The texts that spell a number are those of decimal digits, one at least
(`readNat?_eq_some_iff`).
-/

namespace NavPolicy.Text

/-- The digits of a number are those of its tenth and a last one. -/
theorem natDigits_eq (n : Nat) :
    natDigits n =
      if n < 10 then [n.digitChar] else natDigits (n / 10) ++ [(n % 10).digitChar] :=
  Nat.toDigits_eq_if (by decide)

/-- The digits of a number are decimal digits. -/
theorem isDigit_of_mem_natDigits {n : Nat} {c : Char} (h : c ∈ natDigits n) : c.isDigit = true :=
  Nat.isDigit_of_mem_toDigits (by decide) (by decide) h

/-- Every number has a digit. -/
theorem natDigits_ne_nil (n : Nat) : natDigits n ≠ [] := Nat.toDigits_ne_nil

/-- The digit of a number below ten has it for its value. -/
theorem digitInBase?_digitChar {d : Nat} (h : d < 10) : digitInBase? 10 d.digitChar = some d := by
  revert d
  decide

/-- A further digit counts its own value and multiplies what stands before it by the base. -/
theorem accumulate?_append_singleton (base high : Nat) (cs : List Char) (c : Char) :
    accumulate? base high (cs ++ [c]) =
      (accumulate? base high cs).bind fun n => (digitInBase? base c).map (n * base + ·) := by
  induction cs generalizing high with
  | nil =>
    rw [List.nil_append, accumulate?, accumulate?, Option.bind_some]
    cases digitInBase? base c <;> rfl
  | cons d ds ih =>
    rw [List.cons_append, accumulate?, accumulate?]
    cases digitInBase? base d with
    | none => rfl
    | some v => exact ih (high * base + v)

/-- The digits of a number add up to it. -/
theorem accumulate?_natDigits (n : Nat) : accumulate? 10 0 (natDigits n) = some n := by
  induction n using Nat.strongRecOn with
  | ind n ih =>
    rw [natDigits_eq]
    split
    · rename_i hn
      rw [accumulate?, digitInBase?_digitChar hn]
      simp [accumulate?]
    · rename_i hn
      rw [accumulate?_append_singleton, ih (n / 10) (by omega), Option.bind_some,
        digitInBase?_digitChar (by omega), Option.map_some]
      congr 1
      omega

/-- The digits of a number spell it. -/
theorem readNat?_natDigits (n : Nat) : readNat? (natDigits n) = some n := by
  have hempty : (natDigits n).isEmpty = false := List.isEmpty_eq_false_iff.2 (natDigits_ne_nil n)
  rw [readNat?, readBase?, hempty]
  exact accumulate?_natDigits n

/-- Only zero is written with a zero in front. -/
theorem eq_zero_of_head?_natDigits {n : Nat} (h : (natDigits n).head? = some '0') : n = 0 := by
  induction n using Nat.strongRecOn with
  | ind n ih =>
    rw [natDigits_eq] at h
    split at h
    · exact Nat.digitChar_eq_zero.1 (Option.some.inj h)
    · rename_i hn
      obtain ⟨d, ds, hds⟩ := List.exists_cons_of_ne_nil (natDigits_ne_nil (n / 10))
      rw [hds, List.cons_append, List.head?_cons] at h
      have htenth := ih (n / 10) (by omega) (by rw [hds, List.head?_cons, h])
      omega

/-! ## Zeros in front -/

/-- Zeros in front add nothing. -/
theorem accumulate?_zeros (k : Nat) (cs : List Char) :
    accumulate? 10 0 (List.replicate k '0' ++ cs) = accumulate? 10 0 cs := by
  induction k with
  | zero => rfl
  | succ k ih => exact ih

/-- The padded digits of a number spell it. -/
theorem readNat?_paddedDigits (width n : Nat) : readNat? (paddedDigits width n) = some n := by
  have hempty : (paddedDigits width n).isEmpty = false :=
    List.isEmpty_eq_false_iff.2 (List.append_ne_nil_of_right_ne_nil _ (natDigits_ne_nil n))
  rw [readNat?, readBase?, hempty]
  exact (accumulate?_zeros _ _).trans (accumulate?_natDigits n)

/-- Padded digits are decimal digits. -/
theorem isDigit_of_mem_paddedDigits {width n : Nat} {c : Char} (h : c ∈ paddedDigits width n) :
    c.isDigit = true := by
  rcases List.mem_append.1 h with h | h
  · rw [List.eq_of_mem_replicate h]
    decide
  · exact isDigit_of_mem_natDigits h

/-- A number that has no more digits than the width is padded to exactly the width. -/
theorem length_paddedDigits {width n : Nat} (hwidth : 0 < width) (hn : n < 10 ^ width) :
    (paddedDigits width n).length = width := by
  have hlength : (natDigits n).length ≤ width := (Nat.length_toDigits_le_iff (by decide) hwidth).2 hn
  simp only [paddedDigits, List.length_append, List.length_replicate]
  omega

/-! ## All texts that spell a number -/

/-- The digits of base ten are the decimal digits, each with its value. -/
theorem digitInBase?_eq_some_iff {c : Char} {d : Nat} :
    digitInBase? 10 c = some d ↔ c.isDigit = true ∧ c.toNat - '0'.toNat = d := by
  have hdigit : c.isDigit = true ↔ '0' ≤ c ∧ c ≤ '9' := by
    simp only [Char.isDigit, Bool.and_eq_true, decide_eq_true_eq, ge_iff_le]
    exact Iff.rfl
  rw [digitInBase?, digitValue?, Option.filter_eq_some_iff, decide_eq_true_eq, hdigit]
  split
  · rename_i hc
    have hvalue : c.toNat - '0'.toNat < 10 := by
      have hupper : c.toNat ≤ '9'.toNat := hc.2
      have hnine : '9'.toNat - '0'.toNat < 10 := by decide
      omega
    constructor
    · rintro ⟨h, -⟩
      exact ⟨hc, Option.some.inj h⟩
    · rintro ⟨-, rfl⟩
      exact ⟨rfl, hvalue⟩
  · rename_i hc
    constructor
    · rintro ⟨h, hlt⟩
      split at h
      · have := Option.some.inj h
        omega
      · split at h
        · have := Option.some.inj h
          omega
        · exact absurd h (by simp)
    · exact fun h => absurd h.1 hc

/-- Digits that follow others spell a number just when all of them are decimal. -/
theorem accumulate?_eq_some_iff {high n : Nat} {cs : List Char} :
    accumulate? 10 high cs = some n ↔
      (∀ c ∈ cs, c.isDigit = true) ∧ Nat.ofDigitChars 10 cs high = n := by
  induction cs generalizing high with
  | nil =>
    rw [accumulate?, Option.some.injEq]
    exact ⟨fun h => ⟨by simp, h⟩, And.right⟩
  | cons c cs ih =>
    rw [accumulate?, List.forall_mem_cons, Nat.ofDigitChars_cons]
    cases hd : digitInBase? 10 c with
    | none =>
      constructor
      · exact fun h => absurd h (by simp)
      · rintro ⟨⟨hc, -⟩, -⟩
        exact absurd (digitInBase?_eq_some_iff.2 ⟨hc, rfl⟩) (by simp [hd])
    | some d =>
      obtain ⟨hc, rfl⟩ := digitInBase?_eq_some_iff.1 hd
      dsimp only
      rw [ih, Nat.mul_comm]
      simp only [hc, true_and]

/-- A text spells a number just when it consists of decimal digits, one at least. -/
theorem readNat?_eq_some_iff {n : Nat} {cs : List Char} :
    readNat? cs = some n ↔
      cs ≠ [] ∧ (∀ c ∈ cs, c.isDigit = true) ∧ Nat.ofDigitChars 10 cs 0 = n := by
  rw [readNat?, readBase?]
  cases cs with
  | nil => simp
  | cons c cs =>
    rw [← accumulate?_eq_some_iff]
    simp

end NavPolicy.Text
