/-!
# Paths

A path is a text of parts between slashes.  Empty parts and single dots go nowhere, and two dots go up.

## Operations

* `Path.parent` — the path of the directory that a path lies in,
* `Path.draft`  — the path under which a file is written before it takes its place.
-/

namespace NavPolicy.Path

/-- The parts of a path. -/
def split : List Char → List (List Char)
  | [] => [[]]
  | c :: cs =>
    match c, split cs with
    | '/', parts => [] :: parts
    | c, part :: parts => (c :: part) :: parts
    | c, [] => [[c]]

/-- The parts of a path. -/
def parts (path : String) : List String := (split path.toList).map String.ofList

/-- The path of parts. -/
def ofParts (parts : List String) : String := "/".intercalate parts

/-- Whether a part goes nowhere. -/
def isIdle (part : String) : Bool := part = "" || part = "."

/-- Whether a part is the name of a file or a directory. -/
def isName (part : String) : Bool := !isIdle part && part ≠ ".."

/-- The parts up to the last one that goes somewhere. -/
def withoutIdleEnd (parts : List String) : List String :=
  (parts.reverse.dropWhile isIdle).reverse

/-- The parts of the path of the directory that a path lies in; there are none where the path starts. -/
def parentParts (path : String) : List String :=
  withoutIdleEnd (withoutIdleEnd (parts path)).dropLast

/-- The path of the directory that a path lies in, unless it is where the path starts. -/
def parent? (path : String) : Option String :=
  match parentParts path with
  | [] => none
  | parts => some (ofParts parts)

/-- A file's name without its extension, which starts at the last dot but not at the first character. -/
def stem (name : List Char) : List Char :=
  match (name.reverse.dropWhile (· ≠ '.')).drop 1 with
  | [] => name
  | cs => cs.reverse

/-- The path with another extension in the name of its file; a path without such a name stays.  The old
extension is taken off first, and a path that then ends with two dots goes up: it has no such name any more
and stays like that. -/
def withExtension (extension path : String) : String :=
  let named := withoutIdleEnd (parts path)
  match named.getLast? with
  | none => path
  | some name =>
    if name = ".." then path
    else
      let stem := stem name.toList
      if stem = ['.'] && named.length = (parts path).length then ofParts (named.dropLast ++ [".."])
      else ofParts (named.dropLast ++ [String.ofList (stem ++ '.' :: extension.toList)])

/-- The path of the draft under which the file of a path is written first. -/
def draft (path : String) : String := withExtension "tmp" path

end NavPolicy.Path
