import NavPolicy.Json.Token

/-!
# Writing JSON values

Two layouts of a value.  The compact one sets its tokens side by side.  The indented one gives each
item and each field a line of its own, two spaces further in than the brackets around it; an array
or object without members stays on one line.  Both have the same tokens.
-/

namespace NavPolicy.Json

/-! ## Tokens and the compact layout -/

/-- Sets lists side by side with a separator between each two. -/
def separated {α : Type} (sep : List α) : List (List α) → List α
  | [] => []
  | [x] => x
  | x :: y :: rest => x ++ sep ++ separated sep (y :: rest)

mutual

/-- The tokens of a value. -/
def Value.tokens : Value → List Token
  | .null => [.null]
  | .bool b => [.bool b]
  | .number n => [.number n]
  | .string t => [.string t]
  | .array items => .openArray :: (separated [.comma] (itemTokens items) ++ [.closeArray])
  | .object fields => .openObject :: (separated [.comma] (fieldTokens fields) ++ [.closeObject])

/-- The tokens of each item. -/
def itemTokens : List Value → List (List Token)
  | [] => []
  | v :: vs => v.tokens :: itemTokens vs

/-- The tokens of each field, with its name. -/
def fieldTokens : List (Text × Value) → List (List Token)
  | [] => []
  | (name, v) :: fields => (.string name :: .colon :: v.tokens) :: fieldTokens fields

end

/-- The compact layout. -/
def Value.compactChars (v : Value) : List Char := v.tokens.flatMap Token.write

/-! ## The indented layout -/

/-- A new line, `depth` steps in. -/
def newLine (depth : Nat) : List Char := '\n' :: List.replicate (2 * depth) ' '

/-- Brackets around members, each on a line of its own `depth` steps in. -/
def bracketed (opening closing : Char) (depth : Nat) : List (List Char) → List Char
  | [] => [opening, closing]
  | members =>
    opening :: (newLine (depth + 1) ++ separated (',' :: newLine (depth + 1)) members ++
      newLine depth ++ [closing])

mutual

/-- The indented layout of a value that stands `depth` steps in. -/
def Value.indentedChars (depth : Nat) : Value → List Char
  | .array items => bracketed '[' ']' depth (itemLines (depth + 1) items)
  | .object fields => bracketed '\x7b' '\x7d' depth (fieldLines (depth + 1) fields)
  | .null => Token.null.write
  | .bool b => (Token.bool b).write
  | .number n => (Token.number n).write
  | .string t => (Token.string t).write

/-- The layout of each item. -/
def itemLines (depth : Nat) : List Value → List (List Char)
  | [] => []
  | v :: vs => v.indentedChars depth :: itemLines depth vs

/-- The layout of each field. -/
def fieldLines (depth : Nat) : List (Text × Value) → List (List Char)
  | [] => []
  | (name, v) :: fields =>
    (writeText name ++ ':' :: ' ' :: v.indentedChars depth) :: fieldLines depth fields

end

/-- The compact text of a value. -/
def Value.compact (v : Value) : String := String.ofList v.compactChars

/-- The indented text of a value. -/
def Value.indented (v : Value) : String := String.ofList (v.indentedChars 0)

end NavPolicy.Json
