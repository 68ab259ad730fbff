/-!
# YAML tokens

The words of a YAML text.  Besides what is written there are tokens that indentation gives rise to:
the starts and ends of block collections, and keys that only their colon tells to be such.
-/

namespace NavPolicy.Yaml

/-- How a scalar is written. -/
inductive ScalarStyle where
  | plain
  | singleQuoted
  | doubleQuoted
  | literal
  | folded
  deriving DecidableEq, Repr

/-- The words of a YAML text. -/
inductive Token where
  | streamEnd
  | version (major minor : Nat)
  /-- What the handle of tags stands for, in bytes. -/
  | tagHandle (handle : String) (start : List UInt8)
  | documentStart
  | documentEnd
  | blockSequenceStart
  | blockMappingStart
  | blockEnd
  | flowSequenceStart
  | flowSequenceEnd
  | flowMappingStart
  | flowMappingEnd
  | blockEntry
  | flowEntry
  | key
  | value
  | reference (name : String)
  | anchor (name : String)
  /-- A tag by its handle, if it has one, and the bytes after it. -/
  | tag (handle : String) (suffix : List UInt8)
  | scalar (style : ScalarStyle) (text : String)
  deriving DecidableEq, Repr

end NavPolicy.Yaml
