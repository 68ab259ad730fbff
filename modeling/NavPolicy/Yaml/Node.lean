import NavPolicy.Text.Utf8
import NavPolicy.Yaml.Token

/-!
# Nodes of a YAML document

The tree that a document writes, with its anchors and aliases still in place: an alias is a leaf that
names the number of an anchor, and following it is left to those who read the tree.

## Tags

A tag either names one of the types that every document knows, or is one of the document's own, which
start with an exclamation mark.  Own tags are the same if their names are, and in a name a second mark
at the start does not count; the single mark is a tag as well, and so is its own name.
-/

namespace NavPolicy.Yaml

/-- The types of scalars that every document knows. -/
inductive CoreType where
  | null
  | bool
  | int
  | float
  deriving DecidableEq, Repr

/-- What the tag of a node says. -/
inductive Tag where
  /-- One of the document's own, by its name. -/
  | own (name : String)
  /-- One of the document's own whose bytes are no text, so that it has no name. -/
  | nameless
  /-- The type that a scalar is to be read as. -/
  | core (type : CoreType)
  /-- Any other; a scalar with it is a text. -/
  | other
  deriving DecidableEq, Repr

namespace Tag

/-- What the tags of the types that every document knows start with. -/
def coreStart : List UInt8 := Text.utf8Bytes "tag:yaml.org,2002:".toList

/-- A text without the exclamation mark at its start, unless that is all of it. -/
def withoutMark : List Char → List Char
  | '!' :: c :: cs => c :: cs
  | cs => cs

/-- The type with a name. -/
def coreType? (name : List UInt8) : Option CoreType :=
  [("null", CoreType.null), ("bool", .bool), ("int", .int), ("float", .float)].findSome?
    fun (known, type) => if name = Text.utf8Bytes known.toList then some type else none

/-- The tag that bytes write. -/
def ofBytes (bytes : List UInt8) : Tag :=
  if bytes.head? = some '!'.toUInt8 then
    match Text.ofUtf8? bytes with
    | some text => own (String.ofList (withoutMark (withoutMark text.toList)))
    | none => nameless
  else if coreStart.isPrefixOf bytes then
    ((coreType? (bytes.drop coreStart.length)).map core).getD other
  else other

end Tag

/-- What may be said about a node: its anchor, by number, and its tag. -/
structure Properties where
  anchor : Option Nat
  tag : Option Tag
  deriving DecidableEq, Repr

/-- Nothing said about a node. -/
def Properties.none : Properties := ⟨Option.none, Option.none⟩

/-- A node of a document. -/
inductive Node where
  | scalar (props : Properties) (style : ScalarStyle) (text : String)
  | sequence (props : Properties) (items : List Node)
  | mapping (props : Properties) (entries : List (Node × Node))
  | reference (anchor : Nat)
  deriving Repr

namespace Node

/-- The node that stands where nothing is written. -/
def empty (props : Properties) : Node := .scalar props .plain ""

mutual

/-- The nodes with an anchor, under the anchor's number, each before those inside it. -/
def anchored : Node → List (Nat × Node)
  | scalar props style text =>
    (props.anchor.map fun n => (n, Node.scalar props style text)).toList
  | sequence props items =>
    (props.anchor.map fun n => (n, Node.sequence props items)).toList ++ anchoredItems items
  | mapping props entries =>
    (props.anchor.map fun n => (n, Node.mapping props entries)).toList ++ anchoredEntries entries
  | reference _ => []

/-- The anchored nodes in a list of nodes. -/
def anchoredItems : List Node → List (Nat × Node)
  | [] => []
  | node :: nodes => node.anchored ++ anchoredItems nodes

/-- The anchored nodes in a list of entries. -/
def anchoredEntries : List (Node × Node) → List (Nat × Node)
  | [] => []
  | (key, value) :: entries => key.anchored ++ value.anchored ++ anchoredEntries entries

end

mutual

/-- The size of a node: one for a scalar or an alias, two more than its members for a collection. -/
def size : Node → Nat
  | scalar _ _ _ => 1
  | sequence _ items => 2 + sizeItems items
  | mapping _ entries => 2 + sizeEntries entries
  | reference _ => 1

/-- The size of a list of nodes. -/
def sizeItems : List Node → Nat
  | [] => 0
  | node :: nodes => node.size + sizeItems nodes

/-- The size of a list of entries. -/
def sizeEntries : List (Node × Node) → Nat
  | [] => 0
  | (key, value) :: entries => key.size + value.size + sizeEntries entries

end

end Node

/-- A document: its root, if anything is written. -/
structure Document where
  root : Option Node
  deriving Repr

namespace Document

/-- The node that an alias with this number stands for: the last one whose anchor has the number. -/
def target? (d : Document) (n : Nat) : Option Node :=
  d.root.bind fun root => (root.anchored.findRev? fun entry => entry.1 = n).map (·.2)

end Document

end NavPolicy.Yaml
