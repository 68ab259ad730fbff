/-!
# What can be wrong with a YAML text

The reasons for which a text is no YAML document, or not one of the kind that is asked for.
-/

namespace NavPolicy.Yaml

/-- Why a text is not read. -/
inductive Error where
  /-- A control character, or another that no text may have. -/
  | forbiddenCharacter
  /-- A quoted scalar that does not end. -/
  | unclosedQuote
  /-- A line that marks the start or the end of a document inside a quoted scalar. -/
  | documentMarkInQuote
  | badEscape
  | tabInIndentation
  | badBlockHeader
  | badAnchor
  | badTag
  | badDirective
  /-- A key that must be one by its place but has no colon. -/
  | keyWithoutColon
  | misplacedEntry
  | misplacedKey
  | misplacedValue
  | misplacedColon
  | unexpectedCharacter (c : Char)
  /-- A token that the structure of the document does not allow in its place. -/
  | unexpectedToken
  | unknownTagHandle (handle : String)
  | unknownAnchor (name : String)
  | moreThanOneDocument
  /-- Collections nested more deeply than is allowed. -/
  | tooDeep
  /-- Aliases followed more often than is allowed. -/
  | tooManyAliases
  | repeatedKey
  /-- A scalar that is not of the type its tag names. -/
  | wrongScalar (wanted : String)
  /-- An integer beyond sixty-four bits. -/
  | integerTooLarge
  /-- A node that is not of the kind asked for. -/
  | unexpectedNode (wanted : String)
  deriving DecidableEq, Repr

/-- The wording of an error. -/
def Error.message : Error → String
  | forbiddenCharacter => "YAML error: control characters are not allowed"
  | unclosedQuote => "YAML error: a quoted scalar does not end"
  | documentMarkInQuote => "YAML error: a document mark inside a quoted scalar"
  | badEscape => "YAML error: an escape that stands for no character"
  | tabInIndentation => "YAML error: a tab in the indentation"
  | badBlockHeader => "YAML error: a block scalar with a malformed first line"
  | badAnchor => "YAML error: a malformed anchor or alias"
  | badTag => "YAML error: a malformed tag"
  | badDirective => "YAML error: a malformed directive"
  | keyWithoutColon => "YAML error: a key without a colon"
  | misplacedEntry => "YAML error: a sequence entry where none is allowed"
  | misplacedKey => "YAML error: a mapping key where none is allowed"
  | misplacedValue => "YAML error: a mapping value where none is allowed"
  | misplacedColon => "YAML error: a colon before a flow indicator"
  | unexpectedCharacter c => s!"YAML error: no token starts with '{c}'"
  | unexpectedToken => "YAML error: the structure of the document is broken"
  | unknownTagHandle handle => s!"YAML error: unknown tag handle {handle}"
  | unknownAnchor name => s!"YAML error: unknown anchor {name}"
  | moreThanOneDocument => "YAML error: more than one document"
  | tooDeep => "YAML error: collections are nested too deeply"
  | tooManyAliases => "YAML error: aliases are followed too often"
  | repeatedKey => "YAML error: a mapping has a key twice"
  | wrongScalar wanted => s!"YAML error: a scalar is not {wanted}"
  | integerTooLarge => "YAML error: an integer has more than 64 bits"
  | unexpectedNode wanted => s!"YAML error: expected {wanted}"

end NavPolicy.Yaml
