/-!
# Texts as bytes

The UTF-8 form of a text, how long it is, and the text that bytes are the form of.  Digests, percent
encoding and tags are about bytes, and the lengths of names and keys are counted in them.
-/

namespace NavPolicy.Text

/-- The UTF-8 bytes of a text. -/
def utf8Bytes (cs : List Char) : List UInt8 := cs.flatMap String.utf8EncodeChar

/-- The number of UTF-8 bytes of a text. -/
def utf8Length (cs : List Char) : Nat := cs.foldr (fun c n => c.utf8Size + n) 0

/-- The text whose UTF-8 form bytes are. -/
def ofUtf8? (bytes : List UInt8) : Option String := String.fromUTF8? ⟨bytes.toArray⟩

end NavPolicy.Text
