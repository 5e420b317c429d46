import Bibliograph.Store
import Bibliograph.Yaml.Document
import Bibliograph.Yaml.Merge

/-!
# From nodes to data

Every node becomes one datum, however often it is reached.  A collection gets its place at once and
its parts later, in the order in which the collections were reached; so a collection may hold
itself.

Main definitions:

* `Yaml.DecodeFault`: why there are no data;
* `Yaml.Decoding`: computations that make data of nodes;
* `Yaml.decode`: the data of a text.

Main results:

* `Yaml.Decoding.checkKeys_nil`: a mapping without pairs repeats no key.
-/

set_option autoImplicit false

namespace Bibliograph.Yaml

/-- Why there are no data: the text is at fault, or a mapping has a key twice, the second time on
the line that is given. -/
inductive DecodeFault where
  | problem (p : Problem)
  | repeatedKey (key : Value) (line : Nat)

/-- The nodes, the collections so far, what has been made of nodes, and the collections that are
still to be filled, with the nodes that fill them. -/
structure Decoded where
  graph : Graph
  store : Store := {}
  made : Array (Option Datum)
  waiting : List (Nat × Nat) := []

/-- A computation that makes data of nodes. -/
abbrev Decoding (α : Type) := StateT Decoded (Except DecodeFault) α

namespace Decoding

/-- A problem, if there is one. -/
def ofProblem {α : Type} (r : Except Problem α) : Decoding α :=
  match r with
  | .ok a => return a
  | .error p => throw (.problem p)

/-- Notes what is made of a node. -/
def keep (n : Nat) (d : Datum) : Decoding Datum := do
  modify fun s => { s with made := s.made.setIfInBounds n (some d) }
  return d

/-- Gives a place to a collection. -/
def reserve (n : Nat) (c : Container) : Decoding Datum := do
  let s ← get
  let (place, store) := s.store.alloc c
  set { s with store, waiting := s.waiting ++ [(n, place)] }
  keep n (.ref place)

/-- The datum of a node. -/
def datum (n : Nat) : Decoding Datum := do
  let s ← get
  if let some d := s.made[n]?.join then return d
  let some node := s.graph.get? n | throw (.problem .unknownTag)
  match node.tag, node.content with
  | .sequence, _ => reserve n (.list [])
  | .pairs, _ => reserve n (.list [])
  | .mapping, _ => reserve n (.mapping [])
  | tag, .scalar text =>
    let v ← ofProblem (tag.read text)
    keep n (.leaf v)
  | _, _ => throw (.problem (.wrongKind "scalar"))

/-- Fails if a key is repeated among the pairs or is one of those `seen`.  Keys that merge
mappings may be repeated, and collections are not looked at. -/
def checkKeys (seen : List Value) : List (Nat × Nat) → Decoding Unit
  | [] => return
  | (k, _) :: pairs => do
    if (← get).graph.hasTag k .merge then checkKeys seen pairs
    else
      match ← datum k with
      -- a collection as a key is refused when the pairs are filled in
      | .ref _ => checkKeys seen pairs
      | .leaf v =>
        if seen.any fun w => w.same v then
          let line := ((← get).graph.get? k).map Node.line
          throw (.repeatedKey v (line.getD 0 + 1))
        checkKeys (v :: seen) pairs

theorem checkKeys_nil (seen : List Value) : checkKeys seen [] = pure () := rfl

/-- The pairs of a mapping behind those that are there already. -/
def fillPairs (filled : List (Value × Datum)) : List (Nat × Nat) → Decoding (List (Value × Datum))
  | [] => return filled
  | (k, v) :: pairs => do
    let .leaf key ← datum k | throw (.problem .collectionAsKey)
    let d ← datum v
    fillPairs (Assoc.insert key d filled) pairs

/-- A mapping of one pair as a tuple of two data, with a place of its own.  Nothing is made of the
mapping itself. -/
def pairOf (n : Nat) : Decoding Datum := do
  let some [(k, v)] := (← get).graph.pairs? n
    | throw (.problem (.wrongKind "mapping of one pair"))
  let key ← datum k
  let d ← datum v
  let s ← get
  let (place, store) := s.store.alloc (.tuple [key, d])
  set { s with store }
  return .ref place

/-- The collection of a node. -/
def container (n : Nat) : Decoding Container := do
  let g := (← get).graph
  if g.hasTag n .sequence then
    let some items := g.items? n | throw (.problem (.wrongKind "sequence"))
    return .list (← items.mapM datum)
  else if g.hasTag n .pairs then
    let some items := g.items? n | throw (.problem (.wrongKind "sequence"))
    return .list (← items.mapM pairOf)
  else
    let some pairs := g.pairs? n | throw (.problem (.wrongKind "mapping"))
    -- the keys are those of the mapping at this time, which may have been merged before
    checkKeys [] pairs
    let graph ← ofProblem ((← get).graph.merged n)
    modify fun s => { s with graph }
    return .mapping (← fillPairs [] ((graph.pairs? n).getD []))

/-- Fills at most `room` collections. -/
def fillAll : (room : Nat) → Decoding Unit
  | 0 => return
  | room + 1 => do
    let s ← get
    match s.waiting with
    | [] => return
    | (n, place) :: waiting =>
      set { s with waiting }
      let c ← container n
      modify fun s => { s with store := s.store.set place c }
      fillAll room

/-- The datum of a document. -/
def ofDocument (d : Document) : Decoding Datum := do
  let root ← datum d.root
  -- every node is reserved at most once
  fillAll (d.graph.nodes.size + 1)
  return root

end Decoding

/-- The data of a text: the datum at the top, and the collections that it leads to.  A text
without a document stands for `null`. -/
def decode (text : List Char) : Except DecodeFault (Datum × Store) := do
  match ← (Document.read text).mapError .problem with
  | none => return (.leaf .null, {})
  | some d =>
    let made := Array.replicate d.graph.nodes.size none
    let (root, s) ← (Decoding.ofDocument d).run { graph := d.graph, made }
    return (root, s.store)

end Bibliograph.Yaml
