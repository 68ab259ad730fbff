import NavPolicy.Json.Persisted

/-!
# Block rules

A block rule is a pattern under a number.  The numbers tell rules apart: a filtering engine holds at
most one rule under each.
-/

namespace NavPolicy

/-- A pattern whose URLs are refused outright. -/
structure BlockRule where
  id : UInt32
  pattern : String
  deriving DecidableEq, Repr

instance : Json.Persisted BlockRule where
  toJson r := .record [("id", Json.toJson r.id), ("pattern", Json.toJson r.pattern)]
  ofJson v := do
    let fields ← Json.Record.ofValue ["id", "pattern"] v
    return ⟨← fields.required "id", ← fields.required "pattern"⟩

end NavPolicy
