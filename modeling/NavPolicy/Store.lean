import NavPolicy.Files.Error
import NavPolicy.Json.Persisted
import NavPolicy.Table

/-!
# Stores

A store keeps a text under each of its keys.  Writing replaces the whole text of a key.
-/

namespace NavPolicy

/-- Texts under keys, ascending in the key. -/
structure Store where
  entries : List (String × String)
  ascending : Table.Ascending Prod.fst entries
  deriving DecidableEq

/-- Why a store does not give or take a value. -/
inductive StoreError where
  | io (e : IoError)
  /-- What stands under the key is no value of its type. -/
  | invalid (key : String) (e : Json.Error)
  deriving DecidableEq, Repr

/-- The wording of an error. -/
def StoreError.message : StoreError → String
  | io e => s!"IO error: {e.message}"
  | invalid key e => s!"Invalid stored value for '{key}': {e.message}"

namespace Store

/-- The store without texts. -/
def empty : Store := ⟨[], List.Pairwise.nil⟩

/-- The store of a list of keys with their texts; of each key the last counts. -/
def ofList (entries : List (String × String)) : Store :=
  ⟨Table.ofList Prod.fst entries, Table.ascending_ofList Prod.fst entries⟩

/-- The text under a key. -/
def get? (s : Store) (key : String) : Option String :=
  (Table.find? Prod.fst key s.entries).map (·.2)

/-- The store with a text set under a key. -/
def set (s : Store) (key text : String) : Store :=
  ⟨Table.put Prod.fst (key, text) s.entries, Table.ascending_put _ s.ascending⟩

/-- The store without the text under a key. -/
def erase (s : Store) (key : String) : Store :=
  ⟨Table.drop Prod.fst key s.entries, Table.ascending_drop key s.ascending⟩

end Store

end NavPolicy
