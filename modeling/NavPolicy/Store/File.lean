import NavPolicy.Store
import NavPolicy.Text.Blank

/-!
# Stores kept in a file

A store is kept in a file as one JSON object with a string for each key, ascending in the key and laid
out with indents.  The file is read once, when the store is opened, and written anew at every change;
the store changes only once the file has been written.  A missing file and a blank one stand for the
store without texts.
-/

namespace NavPolicy

/-- The keys and texts of an object whose fields are all strings. -/
def Store.ofFields : List (Json.Text × Json.Value) → Except Json.Error (List (String × String))
  | [] => .ok []
  | (some key, .string (some text)) :: rest =>
    match Store.ofFields rest with
    | .ok entries => .ok ((key, text) :: entries)
    | .error e => .error e
  | _ => .error (.unexpected "a string field")

instance : Json.Persisted Store where
  toJson store := .record (store.entries.map fun (key, text) => (key, Json.toJson text))
  ofJson
    | .object fields => (Store.ofFields fields).map Store.ofList
    | _ => .error (.unexpected "an object")

/-- The text of the file that keeps a store. -/
def Store.fileText (s : Store) : String := (Json.toJson s).indented

/-- The store that a file's text keeps. -/
def Store.ofFileText (text : String) : Except Json.Error Store :=
  if (Text.trim text.toList).isEmpty then .ok .empty else Json.read text

/-- Opens the store that a file keeps; `path` names it in errors. -/
def Store.openFile (path : String) : FoundFile → Except StoreError Store
  | .ok text => (Store.ofFileText text).mapError (.invalid path)
  | .error .notFound => .ok .empty
  | .error e => .error (.io e)

/-- A store together with the file that keeps it. -/
structure FileStore where
  values : Store
  /-- The text of the file, if there is a file. -/
  file : Option String
  deriving DecidableEq

namespace FileStore

/-- Takes over new values by writing the file; `fault` is what stops the writing, if anything does. -/
def save (_ : FileStore) (values : Store) (fault : Option IoError) : Except StoreError FileStore :=
  match fault with
  | some e => .error (.io e)
  | none => .ok ⟨values, some values.fileText⟩

/-- Sets a text under a key. -/
def set (s : FileStore) (key text : String) (fault : Option IoError) :
    Except StoreError FileStore :=
  s.save (s.values.set key text) fault

/-- Removes the text under a key; without one there is nothing to write. -/
def erase (s : FileStore) (key : String) (fault : Option IoError) : Except StoreError FileStore :=
  match s.values.get? key with
  | none => .ok s
  | some _ => s.save (s.values.erase key) fault

end FileStore

end NavPolicy
