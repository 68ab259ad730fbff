import NavPolicy.Json.Token

/-!
# Reading JSON values

A value is read from its tokens by a machine that takes one token at a time (`State.step`) and keeps
the arrays and objects that are still open as frames.  Nesting is thus bounded by nothing but the
text, and a text is a value exactly when the machine comes to rest with no frame left.
-/

namespace NavPolicy.Json

/-- An array or an object that is still open, with its finished members, the last one first. -/
inductive Frame where
  | items (done : List Value)
  | field (done : List (Text × Value)) (name : Text)
  deriving Repr

/-- What the reader expects next, with the open frames, the innermost first. -/
inductive State where
  /-- A value. -/
  | value (frames : List Frame)
  /-- The first item of an array, or its end. -/
  | firstItem (frames : List Frame)
  /-- The first field of an object, or its end. -/
  | firstField (frames : List Frame)
  /-- A further field of an object. -/
  | nextField (done : List (Text × Value)) (frames : List Frame)
  /-- The colon after a field's name. -/
  | colon (done : List (Text × Value)) (name : Text) (frames : List Frame)
  /-- What follows a finished value. -/
  | after (v : Value) (frames : List Frame)
  deriving Repr

namespace State

/-- Takes the first token of a value. -/
def begin (frames : List Frame) : Token → Option State
  | .null => some (.after .null frames)
  | .bool b => some (.after (.bool b) frames)
  | .number n => some (.after (.number n) frames)
  | .string t => some (.after (.string t) frames)
  | .openArray => some (.firstItem frames)
  | .openObject => some (.firstField frames)
  | _ => none

/-- Takes the token after a finished value: it goes on with the innermost frame or closes it. -/
def finish (v : Value) : List Frame → Token → Option State
  | .items done :: frames, .comma => some (.value (.items (v :: done) :: frames))
  | .items done :: frames, .closeArray => some (.after (.array (v :: done).reverse) frames)
  | .field done name :: frames, .comma => some (.nextField ((name, v) :: done) frames)
  | .field done name :: frames, .closeObject =>
    some (.after (.object ((name, v) :: done).reverse) frames)
  | _, _ => none

/-- Takes one token. -/
def step : State → Token → Option State
  | value frames, t => begin frames t
  | firstItem frames, .closeArray => some (.after (.array []) frames)
  | firstItem frames, t => begin (.items [] :: frames) t
  | firstField frames, .closeObject => some (.after (.object []) frames)
  | firstField frames, .string name => some (.colon [] name frames)
  | firstField _, _ => none
  | nextField done frames, .string name => some (.colon done name frames)
  | nextField _ _, _ => none
  | colon done name frames, .colon => some (.value (.field done name :: frames))
  | colon _ _ _, _ => none
  | after v frames, t => finish v frames t

/-- Takes tokens one after the other. -/
def run (s : State) : List Token → Option State
  | [] => some s
  | t :: ts =>
    match s.step t with
    | some s => run s ts
    | none => none

/-- The value that has been read, once no frame is left. -/
def result? : State → Option Value
  | after v [] => some v
  | _ => none

end State

/-- The value that a list of tokens writes. -/
def ofTokens? (ts : List Token) : Option Value :=
  match (State.value []).run ts with
  | some s => s.result?
  | none => none

/-- The value that a text writes. -/
def parse? (text : String) : Option Value :=
  match lex text.toList with
  | some ts => ofTokens? ts
  | none => none

end NavPolicy.Json
