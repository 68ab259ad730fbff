import NavPolicy.Pattern

/-!
# Patterns as regular expressions

A pattern has an equivalent regular expression that is anchored at both ends: its literal runs with the
characters escaped that have a meaning there, and `.*` for each star.
-/

namespace NavPolicy.Pattern

/-- The characters that have a meaning in regular expressions. -/
def isMeta (c : Char) : Bool := "\\.+*?()|[]\x7b\x7d^$#&-~".toList.contains c

/-- A character as a literal. -/
def escapeMeta (c : Char) : List Char := if isMeta c then ['\\', c] else [c]

/-- The literal runs with stars between them. -/
def regexBody (first : List Char) (runs : List (List Char)) : List Char :=
  first.flatMap escapeMeta ++ runs.flatMap fun run => '.' :: '*' :: run.flatMap escapeMeta

/-- The anchored regular expression of a pattern. -/
def regexSource (pattern : String) : String :=
  let (first, runs) := splitAtStars pattern.toList
  String.ofList ("^(?:".toList ++ regexBody first runs ++ ")$".toList)

end NavPolicy.Pattern
