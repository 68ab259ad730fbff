/-!
# Why files are out of reach

What stops the reading or writing of a file.  The numbers in the wording are those of the system.
-/

namespace NavPolicy

/-- Why a file cannot be read or written. -/
inductive IoError where
  | notFound
  | busy
  | occupied
  | notADirectory
  | isADirectory
  | nameTooLong
  /-- A path with a zero byte, which the system would take for its end. -/
  | zeroByte
  /-- A file whose bytes are not UTF-8. -/
  | notText
  | other (reason : String)
  deriving DecidableEq, Repr

/-- The wording of an error. -/
def IoError.message : IoError → String
  | notFound => "No such file or directory (os error 2)"
  | busy => "Device or resource busy (os error 16)"
  | occupied => "File exists (os error 17)"
  | notADirectory => "Not a directory (os error 20)"
  | isADirectory => "Is a directory (os error 21)"
  | nameTooLong => "File name too long (os error 36)"
  | zeroByte => "file name contained an unexpected NUL byte"
  | notText => "stream did not contain valid UTF-8"
  | other reason => reason

/-- A file as it is found: with the text it holds, or out of reach. -/
abbrev FoundFile := Except IoError String

end NavPolicy
