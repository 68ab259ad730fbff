import NavPolicy.Files.Error
import NavPolicy.Files.Path
import NavPolicy.Text.Utf8

/-!
# Trees of files

Files and directories by the names on the way to them, and what reading and writing does to them.  A
path is followed part by part, and each part but the last has to lead into a directory.  A part that
goes nowhere has to stand in a directory as well, so that a path to a file ends with no slash.

## Writing

`FileTree.save` writes a file by way of a draft, so that the file is never found half written: it makes
the directories that are missing, writes the draft and lets it take the file's place.  What was done
before a step failed stays.
-/

namespace NavPolicy

/-- What a name stands for. -/
inductive FileEntry where
  | directory
  /-- A file with its text, if its bytes are one. -/
  | file (text : Option String)
  deriving DecidableEq, Repr

/-- Files and directories. -/
structure FileTree where
  /-- What stands at a place, which is the names on the way from the top; the top is not in the list. -/
  entries : List (List String × FileEntry)
  /-- The directory where paths start that do not start with a slash. -/
  here : List String
  deriving DecidableEq, Repr

namespace FileTree

/-- The most bytes of a name. -/
def maxNameLength : Nat := 255

/-- The most bytes of a path. -/
def maxPathLength : Nat := 4095

/-! ## Places -/

/-- What stands at a place. -/
def at? (t : FileTree) (place : List String) : Option FileEntry :=
  if place = [] then some .directory else t.entries.lookup place

/-- Whether there is a directory at a place. -/
def isDirectory (t : FileTree) (place : List String) : Bool := t.at? place = some .directory

/-- The tree without a place and all that is below it. -/
def remove (t : FileTree) (place : List String) : FileTree :=
  { t with entries := t.entries.filter fun (p, _) => !place.isPrefixOf p }

/-- The tree with something at a place. -/
def put (t : FileTree) (place : List String) (e : FileEntry) : FileTree :=
  { t with entries := (place, e) :: t.entries.filter fun (p, _) => p ≠ place }

/-- The tree with directories on the way to a place. -/
def putDirectories (t : FileTree) (place : List String) : FileTree :=
  (List.range (place.length + 1)).foldl (fun t n =>
    if (t.at? (place.take n)).isSome then t else t.put (place.take n) .directory) t

/-! ## Following paths -/

/-- Whether a name is one that a file can have. -/
def checkName (name : String) : Except IoError Unit :=
  if Text.utf8Length name.toList ≤ maxNameLength then .ok () else .error .nameTooLong

/-- Follows one part of a path. -/
def step (t : FileTree) (place : List String) (part : String) : Except IoError (List String) :=
  if !t.isDirectory place then .error .notADirectory
  else if Path.isIdle part then .ok place
  else if part = ".." then .ok place.dropLast
  else do
    checkName part
    if (t.at? (place ++ [part])).isSome then return place ++ [part] else throw .notFound

/-- The parts of a path that may be followed, and where it starts. -/
def start (t : FileTree) (path : String) : Except IoError (List String × List String) :=
  let cs := path.toList
  if '\x00' ∈ cs then .error .zeroByte
  else if cs.isEmpty then .error .notFound
  else if maxPathLength < Text.utf8Length cs then .error .nameTooLong
  else .ok (Path.parts path, if cs.head? = some '/' then [] else t.here)

/-- The place that a path leads to. -/
def find (t : FileTree) (path : String) : Except IoError (List String) := do
  let (parts, place) ← t.start path
  parts.foldlM t.step place

/-- The text of the file that a path leads to. -/
def read (t : FileTree) (path : String) : FoundFile := do
  match t.at? (← t.find path) with
  | some (.file (some text)) => return text
  | some (.file none) => throw .notText
  | some .directory => throw .isADirectory
  | none => throw .notFound

/-! ## Changes -/

/-- The last part of a path, where it is looked up, and whether slashes follow it. -/
structure Entrance where
  directory : List String
  part : String
  slashed : Bool
  deriving DecidableEq, Repr

/-- The place that an entrance leads to by a name. -/
def Entrance.place (e : Entrance) : List String := e.directory ++ [e.part]

/-- The entrance that a path has to its place, whether or not anything stands there. -/
def entrance (t : FileTree) (path : String) : Except IoError Entrance := do
  let (parts, place) ← t.start path
  let named := (parts.reverse.dropWhile (· = "")).reverse
  let directory ← named.dropLast.foldlM t.step place
  if t.isDirectory directory then
    return ⟨directory, named.getLastD ".", named.length < parts.length⟩
  else throw .notADirectory

/-- Makes a directory. -/
def makeDirectory (t : FileTree) (path : String) : Except IoError FileTree := do
  let e ← t.entrance path
  if !Path.isName e.part then throw .occupied
  checkName e.part
  if (t.at? e.place).isSome then throw .occupied
  return t.put e.place .directory

/-- Makes the directories that are missing on the way to one and it itself, given the parts of its
path, the last one first; also gives what stops it, if anything does. -/
def makeDirectories (t : FileTree) : List String → FileTree × Option IoError
  | [] => (t, none)
  | part :: parts =>
    if Path.isIdle part then t.makeDirectories parts
    else
      let path := Path.ofParts (part :: parts).reverse
      let make (t : FileTree) : FileTree × Option IoError :=
        match t.makeDirectory path with
        | .ok t => (t, none)
        | .error e =>
          match t.find path with
          | .ok place => if t.isDirectory place then (t, none) else (t, some e)
          | .error _ => (t, some e)
      match make t with
      | (t, some .notFound) =>
        match t.makeDirectories parts with
        | (t, none) => make t
        | (t, some e) => (t, some e)
      | answer => answer

/-- Writes a text to a file, which need not have been there. -/
def write (t : FileTree) (path text : String) : Except IoError FileTree := do
  let e ← t.entrance path
  if e.slashed || !Path.isName e.part then throw .isADirectory
  checkName e.part
  if t.isDirectory e.place then throw .isADirectory
  return t.put e.place (.file (some text))

/-- Lets a file take the place of another one, which need not have been there. -/
def rename (t : FileTree) (source target : String) : Except IoError FileTree := do
  let s ← t.entrance source
  let e ← t.entrance target
  if !Path.isName s.part || !Path.isName e.part then throw .busy
  checkName s.part
  match t.at? s.place with
  | none => throw .notFound
  | some entry =>
    checkName e.part
    if s.slashed || e.slashed then throw .notADirectory
    if t.isDirectory e.place then throw .isADirectory
    return (t.remove s.place).put e.place entry

/-- Writes a text to a file by way of a draft; also gives what stops it, if anything does. -/
def save (t : FileTree) (path text : String) : FileTree × Option IoError :=
  match t.makeDirectories (Path.parentParts path).reverse with
  | (t, some e) => (t, some e)
  | (t, none) =>
    match t.write (Path.draft path) text with
    | .error e => (t, some e)
    | .ok t =>
      match t.rename (Path.draft path) path with
      | .error e => (t, some e)
      | .ok t => (t, none)

end FileTree

end NavPolicy
