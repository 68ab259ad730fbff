import NavPolicy.Json.Reader
import NavPolicy.Json.Writer

/-!
# Types that are kept as JSON

A type is kept as JSON by a value for each of its members and a reading of values.  The reading is
more liberal than the writing: a record may also be given as an array of its fields in order, unknown
fields are skipped, and an enumeration may also be given as an object with one null field.

## Records

`Record.ofValue` takes apart a value that is to be a record with given field names.  A field that is
absent is missed by `Record.required` in both forms of record, by `Record.nullable` only in the array
form, and never by `Record.optional`.
-/

namespace NavPolicy.Json

/-- Why a text or a value is not one of the type. -/
inductive Error where
  | malformed
  | unexpected (wanted : String)
  | missingField (name : String)
  | repeatedField (name : String)
  | tooManyFields
  | unknownVariant (name : String)
  deriving DecidableEq, Repr

/-- The wording of an error. -/
def Error.message : Error → String
  | malformed => "JSON error: the text is not a JSON value"
  | unexpected wanted => s!"JSON error: expected {wanted}"
  | missingField name => s!"JSON error: missing field {name}"
  | repeatedField name => s!"JSON error: repeated field {name}"
  | tooManyFields => "JSON error: too many array items for the record"
  | unknownVariant name => s!"JSON error: unknown variant {name}"

/-- A type whose members are kept as JSON values. -/
class Persisted (α : Type) where
  toJson : α → Value
  ofJson : Value → Except Error α

export Persisted (toJson ofJson)

/-- The compact text under which a member of the type is kept. -/
def write {α : Type} [Persisted α] (x : α) : String := (toJson x).compact

/-- The member of the type that a text stands for. -/
def read {α : Type} [Persisted α] (text : String) : Except Error α :=
  match parse? text with
  | some v => ofJson v
  | none => .error .malformed

/-! ## Plain types -/

instance : Persisted String where
  toJson := Value.ofString
  ofJson
    | .string (some s) => .ok s
    | _ => .error (.unexpected "a string")

instance : Persisted UInt32 where
  toJson n := .ofNat n.toNat
  ofJson
    | .number (.integer false n) =>
      if n < UInt32.size then .ok (.ofNat n) else .error (.unexpected "a 32-bit number")
    | _ => .error (.unexpected "a 32-bit number")

instance : Persisted UInt64 where
  toJson n := .ofNat n.toNat
  ofJson
    | .number (.integer false n) =>
      if n < UInt64.size then .ok (.ofNat n) else .error (.unexpected "a 64-bit number")
    | _ => .error (.unexpected "a 64-bit number")

/-- Reads a signed 32-bit number; zero has no sign. -/
def int32OfJson : Value → Except Error Int32
  | .number (.integer false n) =>
    if n < 1 <<< 31 then .ok (.ofNat n) else .error (.unexpected "a signed 32-bit number")
  | .number (.integer true n) =>
    if 0 < n ∧ n ≤ 1 <<< 31 then .ok (.ofInt (-n)) else .error (.unexpected "a signed 32-bit number")
  | _ => .error (.unexpected "a signed 32-bit number")

instance : Persisted Int32 where
  toJson n := .ofInt n.toInt
  ofJson := int32OfJson

instance {α : Type} [Persisted α] : Persisted (Option α) where
  toJson
    | some x => toJson x
    | none => .null
  ofJson
    | .null => .ok none
    | v => (ofJson v).map some

instance {α : Type} [Persisted α] : Persisted (List α) where
  toJson xs := .array (xs.map toJson)
  ofJson
    | .array items => items.mapM ofJson
    | _ => .error (.unexpected "an array")

/-! ## Records -/

/-- A record taken apart: the values of those of its declared fields that are present, and whether
it was given as an array. -/
structure Record where
  positional : Bool
  fields : List (String × Value)

namespace Record

/-- Takes the declared ones among the fields of an object, in their order in the text.  A name that
stands for no text and a declared name that occurs twice are errors. -/
def ofFields (names : List String) : List (Text × Value) → Except Error (List (String × Value))
  | [] => .ok []
  | (none, _) :: _ => .error (.unexpected "a field name")
  | (some name, v) :: rest =>
    match ofFields names rest with
    | .error e => .error e
    | .ok fields =>
      if name ∉ names then .ok fields
      else if fields.any (·.1 = name) then .error (.repeatedField name)
      else .ok ((name, v) :: fields)

/-- Takes apart a value that is to be a record with these field names. -/
def ofValue (names : List String) : Value → Except Error Record
  | .object fields => (ofFields names fields).map (⟨false, ·⟩)
  | .array items =>
    if items.length ≤ names.length then .ok ⟨true, names.zip items⟩ else .error .tooManyFields
  | _ => .error (.unexpected "a record")

/-- The value of a field. -/
def get? (r : Record) (name : String) : Option Value := r.fields.lookup name

variable {α : Type} [Persisted α]

/-- The content of a field that must be present. -/
def required (r : Record) (name : String) : Except Error α :=
  match r.get? name with
  | some v => ofJson v
  | none => .error (.missingField name)

/-- The content of a field that has a default. -/
def optional (r : Record) (name : String) (default : α) : Except Error α :=
  match r.get? name with
  | some v => ofJson v
  | none => .ok default

/-- The content of a field that is null when an object leaves it out; an array gives every field. -/
def nullable (r : Record) (name : String) : Except Error (Option α) :=
  match r.get? name with
  | some v => ofJson v
  | none => if r.positional then .error (.missingField name) else .ok none

end Record

/-! ## Enumerations -/

/-- The name that a value gives of a variant without content. -/
def variantName : Value → Except Error String
  | .string (some name) => .ok name
  | .object [(some name, .null)] => .ok name
  | _ => .error (.unexpected "a variant")

end NavPolicy.Json
