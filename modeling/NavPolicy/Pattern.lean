/-!
# URL patterns

A pattern is a text in which every `*` stands for a run of characters other than a newline and every
other character for itself.  It is meant to match a URL from start to end.

## Matching

The stars split a pattern into literal runs (`Pattern.literals`).  The first run must begin the URL
and the last one end it.  Each run between is taken where it first occurs: a later occurrence leaves
no gap that the first one would not leave as well, so nothing is lost by never looking back.
-/

namespace NavPolicy

/-- The most UTF-8 bytes a pattern may have. -/
def Pattern.maxBytes : Nat := 8192

/-- A pattern that may be matched: one within the byte limit. -/
structure Pattern where
  source : String
  within : source.utf8ByteSize ≤ Pattern.maxBytes
  deriving DecidableEq

/-- Why a text is no pattern. -/
inductive PatternError where
  | tooLong (bytes : Nat)
  deriving DecidableEq, Repr

/-- The wording of the refusal. -/
def PatternError.message : PatternError → String
  | tooLong bytes => s!"Pattern of {bytes} bytes exceeds the {Pattern.maxBytes} byte limit"

namespace Pattern

/-- The pattern with this source, unless the source is too long. -/
def compile (source : String) : Except PatternError Pattern :=
  if h : source.utf8ByteSize ≤ maxBytes then .ok ⟨source, h⟩
  else .error (.tooLong source.utf8ByteSize)

/-- Splits a text at its stars: the run before the first star and the runs after each star. -/
def splitAtStars : List Char → List Char × List (List Char)
  | [] => ([], [])
  | c :: cs =>
    let (run, runs) := splitAtStars cs
    if c = '*' then ([], run :: runs) else (c :: run, runs)

/-- What follows `run` at the start of a text. -/
def afterRun? : List Char → List Char → Option (List Char)
  | [], text => some text
  | _ :: _, [] => none
  | c :: run, d :: text => if c = d then afterRun? run text else none

/-- What follows the first occurrence of `run` that a gap without newline leads to. -/
def afterGap? (run : List Char) : List Char → Option (List Char)
  | [] => afterRun? run []
  | c :: text =>
    match afterRun? run (c :: text) with
    | some rest => some rest
    | none => if c = '\n' then none else afterGap? run text

/-- Whether `run` ends the text and what stands before it has no newline. -/
def endsAfterGap (run text : List Char) : Bool :=
  run.isSuffixOf text && (text.take (text.length - run.length)).all (· ≠ '\n')

/-- Matches the runs that follow stars, each after a gap, up to the end of the text. -/
def matchRuns (last : List Char) : List (List Char) → List Char → Bool
  | [], text => endsAfterGap last text
  | run :: runs, text =>
    match afterGap? run text with
    | some rest => matchRuns last runs rest
    | none => false

/-- Whether a text, split at its stars, matches a URL from start to end. -/
def matchSplit (first : List Char) (runs : List (List Char)) (url : List Char) : Bool :=
  match runs.getLast? with
  | none => first = url
  | some last =>
    match afterRun? first url with
    | some rest => matchRuns last runs.dropLast rest
    | none => false

/-- Whether the pattern matches a URL from start to end. -/
def accepts (p : Pattern) (url : String) : Bool :=
  let (first, runs) := splitAtStars p.source.toList
  matchSplit first runs url.toList

end Pattern

end NavPolicy
