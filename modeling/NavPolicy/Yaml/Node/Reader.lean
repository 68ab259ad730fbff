import NavPolicy.Yaml.Error
import NavPolicy.Yaml.Node

/-!
# Reading documents from tokens

A machine takes one token at a time and keeps the collections that are still open as frames.  A frame
knows which of its members comes next; between members the machine awaits what the frame's kind of
collection demands, and otherwise it awaits a node.

## Members that are not written

Keys, values and entries may be missing; an empty scalar then takes their place.  Where one is missing
the token that shows it belongs to what follows, so that a token may pass through several functions:
`stepNode` when a node may begin, `stepEntry` when a sequence without indentation may end, `stepValue`
when a value may be missing, and `stepMark` when a collection goes on or ends.

## Anchors

Each anchor has a number: how many names were known when it was set.  An alias has the number that its
name got last.
-/

namespace NavPolicy.Yaml

/-- A collection that is still open, with its finished members, the last one first. -/
inductive Frame where
  /-- A block sequence. -/
  | blockItems (props : Properties) (done : List Node)
  /-- A block sequence that is not indented against the mapping around it. -/
  | flatItems (props : Properties) (done : List Node)
  /-- A block mapping, with the key whose value is to come. -/
  | blockEntries (props : Properties) (done : List (Node × Node)) (key : Option Node)
  /-- A flow sequence. -/
  | flowItems (props : Properties) (done : List Node)
  /-- A flow mapping, with the key whose value is to come, and whether that key has a key mark. -/
  | flowEntries (props : Properties) (done : List (Node × Node)) (key : Option Node)
    (marked : Bool)
  /-- A single entry in a flow sequence, which makes a mapping of its own, with its key. -/
  | pair (key : Option Node)
  deriving Repr

/-- What a machine awaits. -/
inductive Stage where
  /-- A node, with the properties that have been read. -/
  | node (props : Properties)
  /-- What the innermost frame demands after a member. -/
  | mark
  /-- The first or a further member of a flow collection, or its end. -/
  | member
  /-- The end of the text. -/
  | finished (root : Node)
  deriving Repr

/-- The names that a document defines. -/
structure Names where
  /-- What the handles of tags stand for. -/
  handles : List (String × List UInt8)
  /-- The numbers of anchors, the latest first. -/
  anchors : List (String × Nat)
  /-- How many different names anchors have. -/
  count : Nat
  deriving Repr

/-- A machine on its way through the tokens of a document. -/
structure Reader where
  stage : Stage
  frames : List Frame
  names : Names
  /-- Whether the document has a start mark, so that it may be empty. -/
  marked : Bool
  deriving Repr

namespace Names

/-- The names of a document without directives and anchors. -/
def initial : Names := ⟨[("!", Text.utf8Bytes ['!']), ("!!", Tag.coreStart)], [], 0⟩

/-- Gives an anchor its number. -/
def setAnchor (n : Names) (name : String) : Nat × Names :=
  let isNew := (n.anchors.lookup name).isNone
  (n.count, { n with
    anchors := (name, n.count) :: n.anchors, count := if isNew then n.count + 1 else n.count })

/-- The tag that a handle and a suffix name. -/
def resolveTag (n : Names) (handle : String) (suffix : List UInt8) : Except Error Tag :=
  if handle = "" then .ok (.ofBytes suffix)
  else
    match n.handles.lookup handle with
    | some start => .ok (.ofBytes (start ++ suffix))
    | none => .error (.unknownTagHandle handle)

end Names

namespace Reader

/-! ## Finished members -/

/-- Hands a finished node to the innermost frame. -/
def deliver (r : Reader) (node : Node) : Reader :=
  match r.frames with
  | [] => { r with stage := .finished node }
  | .blockItems props done :: frames =>
    { r with stage := .mark, frames := .blockItems props (node :: done) :: frames }
  | .flatItems props done :: frames =>
    { r with stage := .mark, frames := .flatItems props (node :: done) :: frames }
  | .blockEntries props done none :: frames =>
    { r with stage := .mark, frames := .blockEntries props done (some node) :: frames }
  | .blockEntries props done (some key) :: frames =>
    { r with stage := .mark, frames := .blockEntries props ((key, node) :: done) none :: frames }
  | .flowItems props done :: frames =>
    { r with stage := .mark, frames := .flowItems props (node :: done) :: frames }
  | .flowEntries props done none true :: frames =>
    { r with stage := .mark, frames := .flowEntries props done (some node) true :: frames }
  | .flowEntries props done none false :: frames =>
    { r with
      stage := .mark
      frames := .flowEntries props ((node, .empty .none) :: done) none false :: frames }
  | .flowEntries props done (some key) _ :: frames =>
    { r with
      stage := .mark, frames := .flowEntries props ((key, node) :: done) none false :: frames }
  | .pair none :: frames => { r with stage := .mark, frames := .pair (some node) :: frames }
  | .pair (some key) :: .flowItems props done :: frames =>
    { r with
      stage := .mark
      frames := .flowItems props (.mapping .none [(key, node)] :: done) :: frames }
  | .pair (some key) :: frames =>
    { r with stage := .finished (.mapping .none [(key, node)]), frames := frames }

/-- Hands a finished collection to the frame around it. -/
def close (r : Reader) (frames : List Frame) (node : Node) : Reader :=
  { r with frames := frames }.deliver node

/-- Opens a collection. -/
def openFrame (r : Reader) (stage : Stage) (f : Frame) : Reader :=
  { r with stage := stage, frames := f :: r.frames }

/-- Awaits a node in the innermost frame. -/
def awaitNode (r : Reader) : Reader := { r with stage := .node .none }

/-! ## Marks between members -/

/-- Takes a token with which a collection goes on or ends, or the text does. -/
def stepMark (r : Reader) (t : Token) : Except Error Reader :=
  match r.frames, t with
  | [], .documentEnd => .ok r
  | [], .streamEnd => .ok r
  | [], _ => .error .moreThanOneDocument
  | .blockItems _ _ :: _, .blockEntry => .ok r.awaitNode
  | .blockItems props done :: frames, .blockEnd =>
    .ok (r.close frames (.sequence props done.reverse))
  | .flatItems _ _ :: _, .blockEntry => .ok r.awaitNode
  | .blockEntries _ _ none :: _, .key => .ok r.awaitNode
  | .blockEntries props done none :: frames, .blockEnd =>
    .ok (r.close frames (.mapping props done.reverse))
  | .blockEntries _ _ (some _) :: _, .value => .ok r.awaitNode
  | .flowItems _ _ :: _, .flowEntry => .ok { r with stage := .member }
  | .flowItems props done :: frames, .flowSequenceEnd =>
    .ok (r.close frames (.sequence props done.reverse))
  | .flowEntries _ _ none _ :: _, .flowEntry => .ok { r with stage := .member }
  | .flowEntries props done none _ :: frames, .flowMappingEnd =>
    .ok (r.close frames (.mapping props done.reverse))
  | .flowEntries _ _ (some _) _ :: _, .value => .ok r.awaitNode
  | .pair (some _) :: _, .value => .ok r.awaitNode
  | _, _ => .error .unexpectedToken

/-- Whether a key awaits a value that the token does not announce. -/
def missesValue (r : Reader) (t : Token) : Bool :=
  t ≠ .value &&
    match r.frames with
    | .blockEntries _ _ (some _) :: _ => true
    | .flowEntries _ _ (some _) _ :: _ => true
    | .pair (some _) :: _ => true
    | _ => false

/-- Takes a token after a member, where a value may be missing. -/
def stepValue (r : Reader) (t : Token) : Except Error Reader :=
  if r.missesValue t then (r.deliver (.empty .none)).stepMark t else r.stepMark t

/-- Takes a token after a member, where a sequence without indentation may end. -/
def stepEntry (r : Reader) (t : Token) : Except Error Reader :=
  match r.frames with
  | .flatItems props done :: frames =>
    if t = .blockEntry then r.stepMark t
    else (r.close frames (.sequence props done.reverse)).stepValue t
  | _ => r.stepValue t

/-! ## Nodes -/

/-- Whether a token shows that the node awaited is not written. -/
def missesNode (r : Reader) (t : Token) : Bool :=
  match r.frames with
  | [] =>
    r.marked &&
      match t with
      | .version _ _ | .tagHandle _ _ | .documentStart | .documentEnd | .streamEnd => true
      | _ => false
  | .blockItems _ _ :: _ => t = .blockEntry || t = .blockEnd
  | .flatItems _ _ :: _ => t = .blockEntry || t = .key || t = .value || t = .blockEnd
  | .blockEntries _ _ _ :: _ => t = .key || t = .value || t = .blockEnd
  | .flowItems _ _ :: _ => false
  | .flowEntries _ _ none marked :: _ =>
    marked && (t = .value || t = .flowEntry || t = .flowMappingEnd)
  | .flowEntries _ _ (some _) _ :: _ => t = .flowEntry || t = .flowMappingEnd
  | .pair _ :: _ => t = .flowEntry || t = .flowSequenceEnd

/-- Whether block collections may stand where the node is awaited. -/
def allowsBlock (r : Reader) : Bool :=
  match r.frames with
  | .flowItems _ _ :: _ => false
  | .flowEntries _ _ _ _ :: _ => false
  | .pair _ :: _ => false
  | _ => true

/-- Whether a sequence without indentation may stand where the node is awaited. -/
def allowsFlat (r : Reader) : Bool :=
  match r.frames with
  | .blockEntries _ _ _ :: _ => true
  | _ => false

/-- Takes a token that does not begin a node: the node is missing or has properties only. -/
def stepMissing (r : Reader) (props : Properties) (t : Token) : Except Error Reader :=
  if props ≠ .none then (r.deliver (.empty props)).stepEntry t
  else
    match r.frames, t with
    -- a single entry without a key takes the token after its key mark with it
    | .pair none :: _, .value => .ok (r.deliver (.empty props))
    | .pair none :: _, .flowEntry => .ok (r.deliver (.empty props))
    | .pair none :: _, .flowSequenceEnd => .ok (r.deliver (.empty props))
    | _, _ =>
      if r.missesNode t then (r.deliver (.empty props)).stepEntry t else .error .unexpectedToken

/-- Takes a token where a node is awaited. -/
def stepNode (r : Reader) (props : Properties) (t : Token) : Except Error Reader :=
  match t with
  | .anchor name =>
    if props.anchor.isSome then r.stepMissing props t
    else
      let (n, names) := r.names.setAnchor name
      .ok { r with stage := .node { props with anchor := some n }, names := names }
  | .tag handle suffix =>
    if props.tag.isSome then r.stepMissing props t
    else
      match r.names.resolveTag handle suffix with
      | .ok tag => .ok { r with stage := .node { props with tag := some tag } }
      | .error e => .error e
  | .reference name =>
    if props ≠ .none then r.stepMissing props t
    else
      match r.names.anchors.lookup name with
      | some n => .ok (r.deliver (.reference n))
      | none => .error (.unknownAnchor name)
  | .scalar style text => .ok (r.deliver (.scalar props style text))
  | .flowSequenceStart => .ok (r.openFrame .member (.flowItems props []))
  | .flowMappingStart => .ok (r.openFrame .member (.flowEntries props [] none false))
  | .blockSequenceStart =>
    if r.allowsBlock then .ok (r.openFrame .mark (.blockItems props [])) else r.stepMissing props t
  | .blockMappingStart =>
    if r.allowsBlock then .ok (r.openFrame .mark (.blockEntries props [] none))
    else r.stepMissing props t
  | .blockEntry =>
    if r.allowsFlat then
      .ok (r.openFrame (.node .none) (.flatItems props []))
    else r.stepMissing props t
  | t => r.stepMissing props t

/-- Takes a token where a member of a flow collection may begin, or the collection end. -/
def stepMember (r : Reader) (t : Token) : Except Error Reader :=
  match r.frames, t with
  | .flowItems _ _ :: _, .flowSequenceEnd => r.stepMark t
  | .flowItems _ _ :: _, .key => .ok (r.openFrame (.node .none) (.pair none))
  | .flowEntries _ _ _ _ :: _, .flowMappingEnd => r.stepMark t
  | .flowEntries props done key _ :: frames, .key =>
    .ok { r with stage := .node .none, frames := .flowEntries props done key true :: frames }
  | _, t => r.stepNode .none t

/-- Takes one token. -/
def step (r : Reader) (t : Token) : Except Error Reader :=
  match r.stage with
  | .node props => r.stepNode props t
  | .mark => r.stepEntry t
  | .member => r.stepMember t
  | .finished _ => if t = .documentEnd || t = .streamEnd then .ok r else .error .moreThanOneDocument

/-- Takes tokens one after the other. -/
def run (r : Reader) : List Token → Except Error Reader
  | [] => .ok r
  | t :: ts =>
    match r.step t with
    | .ok r => run r ts
    | .error e => .error e

end Reader

/-! ## Directives -/

/-- The directives in front of a document. -/
structure Prologue where
  version : Option (Nat × Nat)
  handles : List (String × List UInt8)
  deriving Repr

namespace Prologue

/-- Takes the directives in front of a document; also gives the tokens after them. -/
def read (p : Prologue) : List Token → Except Error (Prologue × List Token)
  | .version major minor :: ts =>
    if p.version.isSome || major ≠ 1 || (minor ≠ 1 && minor ≠ 2) then .error .badDirective
    else read { p with version := some (major, minor) } ts
  | .tagHandle handle start :: ts =>
    if (p.handles.lookup handle).isSome then .error .badDirective
    else read { p with handles := (handle, start) :: p.handles } ts
  | ts => .ok (p, ts)

/-- Whether there is any directive. -/
def isEmpty (p : Prologue) : Bool := p.version.isNone && p.handles.isEmpty

end Prologue

/-- The document that tokens write, if they write just one. -/
def Document.ofTokens (ts : List Token) : Except Error Document := do
  if ts = [.streamEnd] then return ⟨none⟩
  let (prologue, ts) ← Prologue.read ⟨none, []⟩ ts
  let names := { Names.initial with handles := prologue.handles ++ Names.initial.handles }
  let r ←
    match ts with
    | .documentStart :: ts => (⟨.node .none, [], names, true⟩ : Reader).run ts
    | ts =>
      if prologue.isEmpty then (⟨.node .none, [], names, false⟩ : Reader).run ts
      else throw .badDirective
  match r.stage with
  | .finished root => return ⟨some root⟩
  | _ => throw .unexpectedToken

end NavPolicy.Yaml
