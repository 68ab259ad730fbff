import NavPolicy.Text.Digits
import NavPolicy.Text.Percent

/-!
# Percent-encoded bytes are read back

Every byte can be told from its written form, whatever comes after it: a byte that is written as a
character is that character's UTF-8 form, and one that is written as an escape is what the two digits
spell (`percentDecode_encodeByte`).  A percent sign is itself written as an escape, so that what looks like
an escape in the bytes is none in the text.  Hence decoding gives the bytes back
(`percentDecode_encodeBytes`), and the UTF-8 form of a text gives the text (`ofUtf8?_utf8Bytes`).
-/

namespace NavPolicy.Text

/-! ## Percent-encoded texts -/

/-- The characters that are written as they are. -/
def unreservedChars : List Char :=
  "ABCDEFGHIJKLMNOPQRSTUVWXYZabcdefghijklmnopqrstuvwxyz0123456789-._~".toList

/-- The hexadecimal digits with upper-case letters. -/
def upperHexDigits : List Char := "0123456789ABCDEF".toList

/-- Whether a text is made of unreserved characters and of escapes, each a percent sign and two upper-case
hexadecimal digits. -/
inductive IsPercentEncoded : List Char → Prop
  | nil : IsPercentEncoded []
  | char {c : Char} {cs : List Char} (hc : c ∈ unreservedChars) (h : IsPercentEncoded cs) :
      IsPercentEncoded (c :: cs)
  | escape {a b : Char} {cs : List Char} (ha : a ∈ upperHexDigits) (hb : b ∈ upperHexDigits)
      (h : IsPercentEncoded cs) : IsPercentEncoded ('%' :: a :: b :: cs)

/-- The bytes that a text stands for.  A percent sign stands with two hexadecimal digits after it, of either
case, for the byte that they spell, and every other character for its UTF-8 form. -/
def percentDecode : List Char → List UInt8
  | [] => []
  | '%' :: a :: b :: cs =>
    match readBase? 16 [a, b] with
    | some n => .ofNat n :: percentDecode cs
    | none => String.utf8EncodeChar '%' ++ percentDecode (a :: b :: cs)
  | c :: cs => String.utf8EncodeChar c ++ percentDecode cs

namespace IsPercentEncoded

variable {cs ds : List Char}

/-- Two percent-encoded texts make one. -/
theorem append (hcs : IsPercentEncoded cs) (hds : IsPercentEncoded ds) :
    IsPercentEncoded (cs ++ ds) := by
  induction hcs with
  | nil => exact hds
  | char hc _ ih => exact .char hc ih
  | escape ha hb _ ih => exact .escape ha hb ih

/-- The characters of a percent-encoded text are unreserved or percent signs. -/
theorem eq_percent_or_mem (h : IsPercentEncoded cs) :
    ∀ c ∈ cs, c = '%' ∨ c ∈ unreservedChars := by
  have hall : upperHexDigits.all (unreservedChars.contains ·) = true := by decide
  have hdigit {c : Char} (hc : c ∈ upperHexDigits) : c ∈ unreservedChars :=
    List.contains_iff_mem.1 (List.all_eq_true.1 hall c hc)
  induction h with
  | nil => exact fun c hc => absurd hc List.not_mem_nil
  | char hc _ ih => exact List.forall_mem_cons.2 ⟨.inr hc, ih⟩
  | escape ha hb _ ih =>
    rw [List.forall_mem_cons, List.forall_mem_cons, List.forall_mem_cons]
    exact ⟨.inl rfl, .inr (hdigit ha), .inr (hdigit hb), ih⟩

end IsPercentEncoded

/-! ## Single bytes -/

/-- A byte that is written as a character is written as an unreserved one, whose UTF-8 form it is. -/
theorem utf8EncodeChar_of_isUnreserved {b : UInt8} (h : isUnreserved b = true) :
    Char.ofNat b.toNat ∈ unreservedChars ∧ String.utf8EncodeChar (Char.ofNat b.toNat) = [b] := by
  have hall : ∀ n < 256, isUnreserved (.ofNat n) = true →
      Char.ofNat n ∈ unreservedChars ∧ String.utf8EncodeChar (Char.ofNat n) = [.ofNat n] := by
    decide +kernel
  have hb := hall b.toNat b.toNat_lt
  rw [UInt8.ofNat_toNat] at hb
  exact hb h

/-- The digit of a number below sixteen is an upper-case one, and spells the number. -/
theorem upperHexDigit_mem {n : Nat} (h : n < 16) :
    upperHexDigit n ∈ upperHexDigits ∧ digitInBase? 16 (upperHexDigit n) = some n := by
  revert n
  decide

/-- The two digits of a byte spell it. -/
theorem readBase?_upperHexDigits (b : UInt8) :
    readBase? 16 [upperHexDigit (b.toNat / 16), upperHexDigit (b.toNat % 16)] = some b.toNat := by
  have hb : b.toNat < 256 := b.toNat_lt
  have hhigh := (upperHexDigit_mem (n := b.toNat / 16) (by omega)).2
  have hlow := (upperHexDigit_mem (n := b.toNat % 16) (by omega)).2
  rw [readBase?, if_neg (by simp), accumulate?, hhigh]
  dsimp only
  rw [accumulate?, hlow]
  dsimp only
  rw [accumulate?]
  congr 1
  omega

/-- A character that is no percent sign stands for its UTF-8 form. -/
theorem percentDecode_cons_of_ne {c : Char} (h : c ≠ '%') (cs : List Char) :
    percentDecode (c :: cs) = String.utf8EncodeChar c ++ percentDecode cs :=
  percentDecode.eq_3 c cs fun _ _ _ hc _ => h hc

/-- A byte is read back from its written form, whatever follows it. -/
theorem percentDecode_encodeByte (b : UInt8) (cs : List Char) :
    percentDecode (percentEncodeByte b ++ cs) = b :: percentDecode cs := by
  rw [percentEncodeByte]
  split
  · rename_i h
    obtain ⟨hmem, hform⟩ := utf8EncodeChar_of_isUnreserved h
    have hne : Char.ofNat b.toNat ≠ '%' := fun heq => absurd (heq ▸ hmem) (by decide)
    rw [List.singleton_append, percentDecode_cons_of_ne hne, hform, List.singleton_append]
  · show percentDecode ('%' :: upperHexDigit (b.toNat / 16) :: upperHexDigit (b.toNat % 16) :: cs) = _
    rw [percentDecode, readBase?_upperHexDigits]
    dsimp only
    rw [UInt8.ofNat_toNat]

/-- A byte is written as an unreserved character or as an escape. -/
theorem isPercentEncoded_encodeByte (b : UInt8) : IsPercentEncoded (percentEncodeByte b) := by
  have hb : b.toNat < 256 := b.toNat_lt
  rw [percentEncodeByte]
  split
  · rename_i h
    exact .char (utf8EncodeChar_of_isUnreserved h).1 .nil
  · exact .escape (upperHexDigit_mem (by omega)).1 (upperHexDigit_mem (by omega)).1 .nil

/-! ## Bytes and texts -/

/-- Bytes are read back from their written form. -/
theorem percentDecode_encodeBytes (bytes : List UInt8) :
    percentDecode (percentEncodeBytes bytes) = bytes := by
  induction bytes with
  | nil => rfl
  | cons b bytes ih =>
    rw [percentEncodeBytes, List.flatMap_cons, percentDecode_encodeByte]
    exact congrArg (b :: ·) ih

/-- Bytes are written as unreserved characters and escapes. -/
theorem isPercentEncoded_encodeBytes (bytes : List UInt8) :
    IsPercentEncoded (percentEncodeBytes bytes) := by
  induction bytes with
  | nil => exact .nil
  | cons b bytes ih => exact (isPercentEncoded_encodeByte b).append ih

/-- The UTF-8 form of a text, as it is stored. -/
theorem toByteArray_utf8Bytes (text : String) : (utf8Bytes text.toList).toByteArray = text.toUTF8 :=
  String.utf8Encode_toList

/-- The UTF-8 form of a text gives the text. -/
theorem ofUtf8?_utf8Bytes (text : String) : ofUtf8? (utf8Bytes text.toList) = some text := by
  have hbytes : ByteArray.mk (utf8Bytes text.toList).toArray = text.toByteArray := by
    rw [← String.utf8Encode_toList]
    exact ByteArray.ext List.data_toByteArray.symm
  rw [ofUtf8?, hbytes, String.fromUTF8?, dif_pos text.isValidUTF8]
  rfl

/-- A text that is written after another does not change how that one is written. -/
theorem percentEncode_append (text more : String) :
    percentEncode (text ++ more) = percentEncode text ++ percentEncode more := by
  rw [percentEncode, percentEncode, percentEncode, String.toList_append, utf8Bytes, List.flatMap_append,
    percentEncodeBytes, List.flatMap_append, String.ofList_append]
  rfl

end NavPolicy.Text
