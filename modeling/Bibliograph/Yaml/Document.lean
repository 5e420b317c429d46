import Bibliograph.Yaml.Layout
import Bibliograph.Yaml.Node
import Bibliograph.Yaml.Typing

/-!
# From tokens to nodes

Main definitions:

* `Yaml.Draft`: the tokens that are left, the nodes so far and the names that are in use;
* `Yaml.Assembly.node`: the node that the next tokens write;
* `Yaml.Document`: a graph of nodes with the node at the top;
* `Yaml.Document.read`: the document of a text, or nothing if it holds none.
-/

set_option autoImplicit false

namespace Bibliograph.Yaml

/-- The tokens that are left, the nodes so far, the nodes that have an anchor, and what the
handles of tags stand for. -/
structure Draft where
  rest : List Lexeme
  graph : Graph := {}
  anchors : List (String × Nat) := []
  handles : List (String × String) := []

/-- A computation that takes tokens and adds nodes. -/
abbrev Assembly (α : Type) := StateT Draft (Except Problem) α

namespace Assembly

/-- The next token. -/
def peek? : Assembly (Option Token) :=
  return (← get).rest.head?.map Lexeme.token

/-- The line of the next token. -/
def line : Assembly Nat :=
  return ((← get).rest.head?.map Lexeme.line).getD 0

/-- Takes the next token. -/
def skip : Assembly Unit :=
  modify fun d => { d with rest := d.rest.drop 1 }

/-- Takes the next token if it is this one. -/
def accept (t : Token) : Assembly Bool := do
  if (← peek?) == some t then
    skip
    return true
  return false

/-- Takes the next token, which must be this one. -/
def expect (t : Token) (what : String) : Assembly Unit := do
  if !(← accept t) then throw (.expected what)

/-- Whether the next token is one of these. -/
def isNext (ts : List Token) : Assembly Bool :=
  return (← peek?).any ts.contains

/-- Adds a node. -/
def add (node : Node) : Assembly Nat := do
  let d ← get
  let (n, graph) := d.graph.add node
  set { d with graph }
  return n

/-- Sets the content of a node. -/
def fill (n : Nat) (content : Content) : Assembly Unit :=
  modify fun d => { d with graph := d.graph.fill n content }

/-- Adds a node for an empty place. -/
def addEmpty (line : Nat) : Assembly Nat :=
  add { tag := .null, content := .scalar "", line }

/-! ### Properties of nodes -/

/-- The anchor and the tag of a node, as they are written. -/
structure Properties where
  anchor : Option String := none
  tag : Option TagName := none

/-- Takes an anchor, if there is one. -/
def anchor? : Assembly (Option String) := do
  let some (.anchor name) ← peek? | return none
  skip
  return some name

/-- Takes a tag, if there is one. -/
def tag? : Assembly (Option TagName) := do
  let some (.tag t) ← peek? | return none
  skip
  return some t

/-- Takes an anchor and a tag in either order. -/
def properties : Assembly Properties := do
  let anchor ← anchor?
  let tag ← tag?
  if anchor.isSome then return { anchor, tag }
  return { anchor := ← anchor?, tag }

/-- The full name of a tag. -/
def fullName (t : TagName) : Assembly String := do
  match t.handle with
  | none => return t.suffix
  | some handle =>
    let some beginning := (← get).handles.lookup handle | throw (.undefinedHandle handle)
    return beginning ++ t.suffix

/-- Gives an anchor to a node. -/
def name (anchor : Option String) (n : Nat) : Assembly Unit := do
  let some anchor := anchor | return
  modify fun d => { d with anchors := (anchor, n) :: d.anchors }

/-- Fails if an anchor is in use. -/
def checkAnchor (anchor : Option String) : Assembly Unit := do
  let some anchor := anchor | return
  if ((← get).anchors.lookup anchor).isSome then throw (.repeatedAnchor anchor)

/-- The tag of a scalar: the one that is written or, if none is written or only an exclamation
mark, the one that its text suggests. -/
def scalarTag (written : Option String) (text : String) (plain : Bool) : Tag :=
  match written with
  | none => if plain then impliedTag text.toList else .text
  | some "!" => impliedTag text.toList
  | some name => .ofName name

/-- The tag of a collection: the one that is written, if there is one. -/
def collectionTag (written : Option String) (standard : Tag) : Tag :=
  match written with
  | none => standard
  | some "!" => standard
  | some name => .ofName name

/-! ### Nodes -/

/-- Where a node stands: what the collection around it allows. -/
inductive Place where
  | flow
  | block
  | blockOrEntries
  deriving Repr, DecidableEq

/-- Whether collections by indentation may stand at the place. -/
def Place.isBlock : Place → Bool
  | flow => false
  | block => true
  | blockOrEntries => true

/-- A node that has properties and no content. -/
def bare (anchor written : Option String) (line : Nat) : Assembly Nat := do
  if anchor.isNone && written.isNone then throw (.expected "the content of a node")
  let n ← add { tag := scalarTag written "" written.isNone, content := .scalar "", line }
  name anchor n
  return n

/-- A node, or an empty one before one of these tokens. -/
def orEmpty (ends : List Token) (line : Nat) (node : Assembly Nat) : Assembly Nat := do
  if ← isNext ends then addEmpty line else node

/-- A pair inside the brackets that `close` closes, behind the mark of its key. -/
def flowPair (close : Token) (line : Nat) (node : Assembly Nat) : Assembly (Nat × Nat) := do
  let k ← orEmpty [.value, .flowEntry, close] line node
  let v ← if ← accept .value then orEmpty [.flowEntry, close] line node else addEmpty line
  return (k, v)

mutual

/-- The node that the next tokens write. -/
def node : (room : Nat) → Place → Assembly Nat
  | 0, _ => throw (.expected "the content of a node")
  | room + 1, place => do
    if let some (.reference name) ← peek? then
      skip
      let some n := (← get).anchors.lookup name | throw (.undefinedAlias name)
      return n
    let start ← line
    let p ← properties
    let written ← p.tag.mapM fullName
    checkAnchor p.anchor
    let collection (standard : Tag) (empty : Content) : Assembly Nat := do
      let n ← add { tag := collectionTag written standard, content := empty, line := start }
      name p.anchor n
      return n
    match ← peek?, place.isBlock with
    -- a node gets its name before its parts are read, so that these may refer to it
    | some (.scalar text plain), _ =>
      skip
      let n ← add { tag := scalarTag written text plain, content := .scalar text, line := start }
      name p.anchor n
      return n
    | some .flowSequence, _ =>
      skip
      let n ← collection .sequence (.sequence [])
      fill n (.sequence (← flowItems room true))
      return n
    | some .flowMapping, _ =>
      skip
      let n ← collection .mapping (.mapping [])
      fill n (.mapping (← flowPairs room true))
      return n
    | some .blockSequence, true =>
      skip
      let n ← collection .sequence (.sequence [])
      fill n (.sequence (← blockItems room))
      expect .blockEnd "the end of a sequence"
      return n
    | some .blockMapping, true =>
      skip
      let n ← collection .mapping (.mapping [])
      fill n (.mapping (← blockPairs room))
      return n
    | some .blockEntry, _ =>
      if place = .blockOrEntries then
        let n ← collection .sequence (.sequence [])
        fill n (.sequence (← entries room))
        return n
      else bare p.anchor written start
    | _, _ => bare p.anchor written start

/-- The items of a sequence by indentation. -/
def blockItems : (room : Nat) → Assembly (List Nat)
  | 0 => return []
  | room + 1 => do
    let start ← line
    if !(← accept .blockEntry) then return []
    let n ← orEmpty [.blockEntry, .blockEnd] start (node room .block)
    return n :: (← blockItems room)

/-- The items of a sequence that is not indented. -/
def entries : (room : Nat) → Assembly (List Nat)
  | 0 => return []
  | room + 1 => do
    let start ← line
    if !(← accept .blockEntry) then return []
    let n ← orEmpty [.blockEntry, .key, .value, .blockEnd] start (node room .block)
    return n :: (← entries room)

/-- The pairs of a mapping by indentation, up to its end. -/
def blockPairs : (room : Nat) → Assembly (List (Nat × Nat))
  | 0 => throw (.expected "the end of a mapping")
  | room + 1 => do
    let start ← line
    if !(← accept .key) then
      expect .blockEnd "the end of a mapping"
      return []
    let ends := [Token.key, .value, .blockEnd]
    let k ← orEmpty ends start (node room .blockOrEntries)
    let v ←
      if ← accept .value then orEmpty ends start (node room .blockOrEntries) else addEmpty start
    return (k, v) :: (← blockPairs room)

/-- The items of a sequence in brackets, up to its end. -/
def flowItems : (room : Nat) → (first : Bool) → Assembly (List Nat)
  | 0, _ => throw (.expected "the end of a sequence")
  | room + 1, first => do
    if ← accept .flowSequenceEnd then return []
    if !first then
      expect .flowEntry "a comma"
      if ← accept .flowSequenceEnd then return []
    let start ← line
    let n ←
      if ← accept .key then
        let pair ← flowPair .flowSequenceEnd start (node room .flow)
        add { tag := .mapping, content := .mapping [pair], line := start }
      else node room .flow
    return n :: (← flowItems room false)

/-- The pairs of a mapping in brackets, up to its end. -/
def flowPairs : (room : Nat) → (first : Bool) → Assembly (List (Nat × Nat))
  | 0, _ => throw (.expected "the end of a mapping")
  | room + 1, first => do
    if ← accept .flowMappingEnd then return []
    if !first then
      expect .flowEntry "a comma"
      if ← accept .flowMappingEnd then return []
    let start ← line
    let pair ←
      if ← accept .key then flowPair .flowMappingEnd start (node room .flow)
      else
        let k ← node room .flow
        pure (k, ← addEmpty start)
    return pair :: (← flowPairs room false)

end

/-! ### Documents -/

/-- What the handles of tags stand for if nothing else is said. -/
def standardHandles : List (String × String) := [("!", "!"), ("!!", standardTags)]

/-- Takes the directives in front of a document. -/
def directives : (room : Nat) → (versioned : Bool) → Assembly Unit
  | 0, _ => return
  | room + 1, versioned => do
    let some (.directive d) ← peek? | return
    skip
    match d with
    | .version major =>
      if versioned || major != 1 then throw .badDirective
      directives room true
    | .tag handle beginning =>
      if ((← get).handles.lookup handle).isSome then throw .badDirective
      -- the standard handles are added behind these, so a directive may redefine them
      modify fun s => { s with handles := (handle, beginning) :: s.handles }
      directives room versioned
    | .unknown => directives room versioned

/-- Takes tokens as long as they end documents. -/
def skipDocumentEnds : (room : Nat) → Assembly Unit
  | 0 => return
  | room + 1 => do
    if ← accept .documentEnd then skipDocumentEnds room

/-- The only document, if there is one. -/
def document? : Assembly (Option Nat) := do
  let room := 2 * (← get).rest.length + 4
  let standard (d : Draft) : Draft := { d with handles := d.handles ++ standardHandles }
  let root ← match ← peek? with
    | none => return none
    | some .documentStart => explicit room standard
    | some (.directive _) => explicit room standard
    | some _ => do
      modify standard
      node room .block
  if ← accept .documentEnd then skipDocumentEnds room
  if (← peek?).isSome then throw .severalDocuments
  return some root
where
  /-- A document behind its directives and the mark of its start. -/
  explicit (room : Nat) (standard : Draft → Draft) : Assembly Nat := do
    directives room false
    modify standard
    expect .documentStart "the start of a document"
    match ← peek? with
    | none => addEmpty 0
    | some .documentStart => addEmpty 0
    | some .documentEnd => addEmpty 0
    | some (.directive _) => addEmpty 0
    | some _ => node room .block

end Assembly

/-- A graph of nodes with the node at the top. -/
structure Document where
  graph : Graph
  root : Nat
  deriving Repr, DecidableEq

/-- The document of a text, or nothing if it holds none. -/
def Document.read (text : List Char) : Except Problem (Option Document) := do
  let (root, d) ← Assembly.document?.run { rest := ← lexemes text }
  return root.map fun root => { graph := d.graph, root }

end Bibliograph.Yaml
