import NavPolicy.Digest

/-!
# The form of digests

However long the text, its digest is written with sixty-four lower-case hexadecimal digits
(`length_ofText`, `mem_lowerDigits_of_mem_ofText`), so it always has the form that a policy asks of one
(`isWellFormed_ofText`).  That form allows digits of either case, and a digest with an upper-case one is
the digest of no text (`ne_ofText_of_upper`).
-/

namespace NavPolicy.Digest

/-- The hexadecimal digits with lower-case letters. -/
def lowerDigits : List Char := "0123456789abcdef".toList

/-- The hexadecimal digits with letters of either case. -/
def hexDigits : List Char := "0123456789abcdefABCDEF".toList

/-! ## Digits of words -/

/-- The digit of a number below sixteen is a lower-case one. -/
theorem lowerHexDigit_mem {n : Nat} (h : n < 16) : Text.lowerHexDigit n ∈ lowerDigits := by
  revert n
  decide

/-- A word is written with eight digits. -/
theorem length_hexWord (w : UInt32) : (hexWord w).length = 8 := by
  rw [hexWord, List.length_map, List.length_range]

/-- A word is written with lower-case digits. -/
theorem mem_lowerDigits_of_mem_hexWord {w : UInt32} {ch : Char} (h : ch ∈ hexWord w) :
    ch ∈ lowerDigits := by
  rw [hexWord, List.mem_map] at h
  obtain ⟨i, -, rfl⟩ := h
  exact lowerHexDigit_mem (Nat.mod_lt _ (by decide))

/-! ## Digits of digests -/

/-- The digits of a digest are those of the eight words of the last state. -/
theorem toList_sha256Hex (message : List UInt8) :
    (sha256Hex message).toList = (sha256 message).words.flatMap hexWord := String.toList_ofList

/-- A digest is written with sixty-four digits, whatever the message. -/
theorem length_ofText (text : String) : (ofText text).toList.length = 64 := by
  rw [ofText, toList_sha256Hex, State.words]
  simp only [List.flatMap_cons, List.flatMap_nil, List.length_append, length_hexWord,
    List.length_nil]

/-- A digest is written with lower-case digits, whatever the message. -/
theorem mem_lowerDigits_of_mem_ofText {text : String} {ch : Char} (h : ch ∈ (ofText text).toList) :
    ch ∈ lowerDigits := by
  rw [ofText, toList_sha256Hex, List.mem_flatMap] at h
  obtain ⟨w, -, hw⟩ := h
  exact mem_lowerDigits_of_mem_hexWord hw

/-! ## The form that a policy asks for -/

/-- The characters that count as hexadecimal digits are the twenty-two that are meant. -/
theorem isHexDigit_iff {ch : Char} : isHexDigit ch = true ↔ ch ∈ hexDigits := by
  constructor
  · intro h
    simp only [isHexDigit, Char.isDigit, Bool.or_eq_true, Bool.and_eq_true, decide_eq_true_eq] at h
    -- a character is one of those at the numbers of its range
    have hat (low high : Nat) (hrange : ∀ n ≤ high, low ≤ n → Char.ofNat n ∈ hexDigits)
        (hlow : low ≤ ch.toNat) (hhigh : ch.toNat ≤ high) : ch ∈ hexDigits := by
      rw [← Char.ofNat_toNat ch]
      exact hrange _ hhigh hlow
    rcases h with (⟨hlow, hhigh⟩ | ⟨hlow, hhigh⟩) | ⟨hlow, hhigh⟩
    · exact hat 48 57 (by decide) hlow hhigh
    · exact hat 97 102 (by decide) hlow hhigh
    · exact hat 65 70 (by decide) hlow hhigh
  · have hall : hexDigits.all isHexDigit = true := by decide
    exact List.all_eq_true.1 hall ch

/-- A text has the form of a digest if it is sixty-four hexadecimal digits. -/
theorem isWellFormed_iff {text : String} : isWellFormed text = true ↔
    text.toList.length = 64 ∧ ∀ ch ∈ text.toList, ch ∈ hexDigits := by
  simp only [isWellFormed, Bool.and_eq_true, decide_eq_true_eq, List.all_eq_true, isHexDigit_iff]

/-- Every digest has the form of one. -/
theorem isWellFormed_ofText (text : String) : isWellFormed (ofText text) = true := by
  refine isWellFormed_iff.2 ⟨length_ofText text, fun ch hch => ?_⟩
  have hall : lowerDigits.all isHexDigit = true := by decide
  exact isHexDigit_iff.1 (List.all_eq_true.1 hall ch (mem_lowerDigits_of_mem_ofText hch))

/-- A text with an upper-case digit is the digest of nothing. -/
theorem ne_ofText_of_upper {digest : String} (h : ∃ ch ∈ digest.toList, 'A' ≤ ch ∧ ch ≤ 'F')
    (text : String) : digest ≠ ofText text := by
  rintro rfl
  obtain ⟨ch, hch, hupper⟩ := h
  have hnone : lowerDigits.any (fun d => 'A' ≤ d && d ≤ 'F') = false := by decide
  have hupper' : ('A' ≤ ch && ch ≤ 'F') = true := by simpa using hupper
  exact absurd hupper' (List.any_eq_false.1 hnone ch (mem_lowerDigits_of_mem_ofText hch))

end NavPolicy.Digest
