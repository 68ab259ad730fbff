import NavPolicy.Proofs.Text.Percent
import NavPolicy.Redirect

/-!
# Inline documents are carried whole

The URL of an inline document is a fixed start and then the document's UTF-8 bytes, percent-encoded.  No
character of the document is left in it that could mean anything in a URL: what follows the start is made
of unreserved characters and escapes, and percent-decoding it gives the bytes back.  So a URL carries one
document only (`inlineUrl_injective`), and what comes later in a document does not change what is written
of its beginning (`inlineUrl_append`).
-/

namespace NavPolicy

/-- What follows the start of the URL that carries a document. -/
def inlineText (html : String) : List Char := Text.percentEncodeBytes (Text.utf8Bytes html.toList)

/-- The URL of a document is the start and the text that carries the document. -/
theorem inlineUrl_eq (html : String) :
    inlineUrl html = inlineUrlStart ++ String.ofList (inlineText html) := rfl

/-- The text that carries a document stands for the document's UTF-8 bytes. -/
theorem percentDecode_inlineText (html : String) :
    Text.percentDecode (inlineText html) = Text.utf8Bytes html.toList :=
  Text.percentDecode_encodeBytes _

/-- Two URLs are the same only if they carry the same document. -/
theorem inlineUrl_injective : Function.Injective inlineUrl := by
  intro html other h
  rw [inlineUrl_eq, inlineUrl_eq, String.append_right_inj] at h
  have hbytes := congrArg Text.percentDecode (String.ofList_injective h)
  rw [percentDecode_inlineText, percentDecode_inlineText] at hbytes
  have hread := congrArg Text.ofUtf8? hbytes
  rw [Text.ofUtf8?_utf8Bytes, Text.ofUtf8?_utf8Bytes] at hread
  exact Option.some.inj hread

/-- A document that goes on has a URL that goes on. -/
theorem inlineUrl_append (html more : String) :
    inlineUrl (html ++ more) = inlineUrl html ++ Text.percentEncode more := by
  rw [inlineUrl, inlineUrl, Text.percentEncode_append, String.append_assoc]

/-- Whatever the document, its URL is the fixed start and a text that is made only of ASCII letters,
digits, `-`, `.`, `_`, `~` and of percent signs that stand before two upper-case hexadecimal digits each.
Percent-decoding that text gives exactly the UTF-8 bytes of the document, and so the document.  Other
documents have other URLs.  No character of the document ends the URL or changes the rest of it: all that
occurs in the text besides those percent signs is unreserved, and what follows in a document is written
after what comes before as it would be without it. -/
theorem inlineUrl_lossless (html : String) :
    ∃ text : List Char,
      inlineUrl html = "data:text/html;charset=utf-8," ++ String.ofList text ∧
      Text.IsPercentEncoded text ∧
      (Text.percentDecode text).toByteArray = html.toUTF8 ∧
      Text.ofUtf8? (Text.percentDecode text) = some html ∧
      (∀ other, inlineUrl other = inlineUrl html → other = html) ∧
      (∀ c ∈ text, c = '%' ∨ c ∈ Text.unreservedChars) ∧
      ∀ more, inlineUrl (html ++ more) = inlineUrl html ++ Text.percentEncode more := by
  have hform : Text.IsPercentEncoded (inlineText html) := Text.isPercentEncoded_encodeBytes _
  refine ⟨inlineText html, inlineUrl_eq html, hform, ?_, ?_, fun other h => inlineUrl_injective h,
    hform.eq_percent_or_mem, inlineUrl_append html⟩
  · rw [percentDecode_inlineText, Text.toByteArray_utf8Bytes]
  · rw [percentDecode_inlineText, Text.ofUtf8?_utf8Bytes]

/-- An escape in a document is written as the text that it is, and what could end a URL is escaped. -/
example : inlineUrl "é%20#\"\n~" = "data:text/html;charset=utf-8,%C3%A9%2520%23%22%0A~" := by
  decide

end NavPolicy
