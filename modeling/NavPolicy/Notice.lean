/-!
# Notices

What the library has to say about its work besides its results: a line of text with a level.
Operations give their notices in the order in which things happened; printing them is left to the
program around.
-/

namespace NavPolicy

/-- How much a notice matters. -/
inductive Level where
  | error
  | warn
  | info
  | debug
  deriving DecidableEq, Repr

/-- The name of a level. -/
def Level.name : Level → String
  | error => "ERROR"
  | warn => "WARN"
  | info => "INFO"
  | debug => "DEBUG"

/-- A line about what happened. -/
structure Notice where
  level : Level
  text : String
  deriving DecidableEq, Repr

namespace Notice

def error (text : String) : Notice := ⟨.error, text⟩
def warn (text : String) : Notice := ⟨.warn, text⟩
def info (text : String) : Notice := ⟨.info, text⟩
def debug (text : String) : Notice := ⟨.debug, text⟩

/-- The notice as one line: its level and its text. -/
def line (n : Notice) : String := s!"{n.level.name} {n.text}"

end Notice

end NavPolicy
