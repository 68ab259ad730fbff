import NavPolicy.Yaml.Error
import NavPolicy.Yaml.Node.Reader
import NavPolicy.Yaml.Plain
import NavPolicy.Yaml.Token.Lexer

/-!
# YAML values

What a document means, with its aliases followed and its plain scalars understood.  A node with a tag
of the document's own means a tagged value, which is none of the other kinds.  A mapping has each key
once.

## Bounds

Collections may be nested 128 deep, and aliases followed a hundred times for each node of the document;
both bounds keep small texts from having huge values.
-/

namespace NavPolicy.Yaml

/-- A number of a document. -/
inductive Number where
  | integer (n : Int)
  | float (x : Binary64)
  deriving DecidableEq, Repr

/-- What a node means. -/
inductive Value where
  | null
  | bool (b : Bool)
  | number (n : Number)
  | string (s : String)
  | sequence (items : List Value)
  | mapping (entries : List (Value × Value))
  | tagged (tag : String) (v : Value)
  deriving Repr

namespace Value

/-! ## Equal values -/

mutual

/-- Whether two values are the same; the order of a mapping's entries does not count. -/
def same : Value → Value → Bool
  | null, null => true
  | bool a, bool b => a = b
  | number a, number b => a = b
  | string a, string b => a = b
  | sequence a, sequence b => sameItems a b
  | mapping a, mapping b => a.length = b.length && sameEntries a b
  | tagged s a, tagged t b => s = t && same a b
  | _, _ => false

/-- Whether two lists hold the same values in the same order. -/
def sameItems : List Value → List Value → Bool
  | [], [] => true
  | a :: as, b :: bs => same a b && sameItems as bs
  | _, _ => false

/-- Whether each entry of a mapping is one of another mapping. -/
def sameEntries : List (Value × Value) → List (Value × Value) → Bool
  | [], _ => true
  | (k, v) :: entries, others =>
    others.any (fun (l, w) => same k l && same v w) && sameEntries entries others

end

/-- The value under a text in a mapping's entries. -/
def lookup (key : String) (entries : List (Value × Value)) : Option Value :=
  (entries.find? fun (k, _) => match k with | .string s => s = key | _ => false).map (·.2)

/-! ## Scalars -/

/-- The value of a plain scalar without tag. -/
def ofPlain (text : String) : Except Error Value :=
  let cs := text.toList
  if cs.isEmpty || Plain.isNull cs then .ok .null
  else
    match Plain.bool? cs with
    | some b => .ok (.bool b)
    | none =>
      match Plain.integer cs with
      | .integer n => .ok (.number (.integer n))
      | .tooLarge => .error .integerTooLarge
      | .none =>
        if Plain.hasLeadingZero cs then .ok (.string text)
        else
          match Plain.float? cs with
          | some x => .ok (.number (.float x))
          | none => .ok (.string text)

/-- The value of a scalar without tag. -/
def ofUntagged (style : ScalarStyle) (text : String) : Except Error Value :=
  if style = .plain then ofPlain text else .ok (.string text)

/-- The value of a scalar that is to be read as a type. -/
def ofTyped (type : CoreType) (text : String) : Except Error Value :=
  let cs := text.toList
  match type with
  | .null => if Plain.isNull cs then .ok .null else .error (.wrongScalar "null")
  | .bool =>
    match Plain.bool? cs with
    | some b => .ok (.bool b)
    | none => .error (.wrongScalar "a boolean")
  | .int =>
    match Plain.integer cs with
    | .integer n => .ok (.number (.integer n))
    | .tooLarge => .error .integerTooLarge
    | .none => .error (.wrongScalar "an integer")
  | .float =>
    match Plain.float? cs with
    | some x => .ok (.number (.float x))
    | none => .error (.wrongScalar "a float")

/-- The value of a scalar. -/
def ofScalar (props : Properties) (style : ScalarStyle) (text : String) : Except Error Value :=
  match props.tag with
  | some (.own name) => (ofUntagged style text).map (.tagged name)
  | some (.core type) => ofTyped type text
  | some .other => .ok (.string text)
  | some .nameless => ofUntagged style text
  | none => ofUntagged style text

/-! ## Collections and aliases -/

/-- A value under the own tag of its node, if it has one. -/
def withTag (props : Properties) (v : Value) : Value :=
  match props.tag with
  | some (.own name) => .tagged name v
  | _ => v

/-- A computation that counts the aliases it follows. -/
abbrev Following := StateT Nat (Except Error)

/-- Follows an alias to its node, if no more than `most` have been followed. -/
def follow (d : Document) (most : Nat) (node : Node) : Following Node := do
  match node with
  | .reference n =>
    let followed ← get
    if most ≤ followed then throw .tooManyAliases
    set (followed + 1)
    match d.target? n with
    | some target => return target
    | none => throw (.unexpectedNode "the node of an anchor")
  | node => return node

/-- The entries of a mapping with one more, given how nodes are valued. -/
def addEntry (value : Node → Following Value) (done : List (Value × Value)) (entry : Node × Node) :
    Following (List (Value × Value)) := do
  let key ← value entry.1
  if done.any fun (k, _) => same k key then throw .repeatedKey
  let v ← value entry.2
  return done ++ [(key, v)]

/-- The value of a node that is no alias, given how the nodes in it are valued; none are where collections
may not be nested any deeper. -/
def ofNode (value : Option (Node → Following Value)) : Node → Following Value
  | .scalar props style text => ofScalar props style text
  | .reference _ => throw (.unexpectedNode "the node of an anchor")
  | .sequence props items =>
    match value with
    | none => throw .tooDeep
    | some value => do return withTag props (.sequence (← items.mapM value))
  | .mapping props entries =>
    match value with
    | none => throw .tooDeep
    | some value => do return withTag props (.mapping (← entries.foldlM (addEntry value) []))

/-- The value of a node whose collections may be nested `depth` deep. -/
def build (d : Document) (most : Nat) : Nat → Node → Following Value
  | 0, node => do ofNode none (← follow d most node)
  | depth + 1, node => do ofNode (some (build d most depth)) (← follow d most node)

/-- How deep collections may be nested. -/
def maxDepth : Nat := 128

/-- How often aliases may be followed for each node of a document. -/
def followsPerNode : Nat := 100

/-- What a document means; an empty one means null. -/
def ofDocument (d : Document) : Except Error Value :=
  match d.root with
  | none => .ok .null
  | some root => (build d (root.size * followsPerNode) maxDepth root).run' 0

end Value

/-- The document that a text writes. -/
def Document.ofText (text : String) : Except Error Document := do
  Document.ofTokens (← Token.ofText text)

/-- What a text means. -/
def Value.ofText (text : String) : Except Error Value := do
  Value.ofDocument (← Document.ofText text)

end NavPolicy.Yaml
