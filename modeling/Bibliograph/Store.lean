import Bibliograph.Assoc
import Bibliograph.Value.Written

/-!
# Decoded data

A decoded document is not a tree: a collection may be reached in several ways, and it may reach
itself.  So every collection has a place of its own in a store, and whatever holds a collection
refers to its place.

Main definitions:

* `Datum`: a value that is no collection, or a reference to a collection;
* `Container`: a collection of data;
* `Store`: the collections by their places;
* `Store.unfold`: the finite value of a datum, in which a collection is only marked where it would
  occur in its own inside;
* `Store.alloc`: puts a collection into the store.

Main results:

* `Store.unfold_leaf`: a value that is no collection is its own unfolding.
-/

set_option autoImplicit false

namespace Bibliograph

/-- A value that is no collection, or the place of a collection. -/
inductive Datum where
  | leaf (v : Value)
  | ref (place : Nat)
  deriving Repr, Inhabited

/-- A collection of data. -/
inductive Container where
  | list (items : List Datum)
  | tuple (items : List Datum)
  | mapping (pairs : List (Value × Datum))
  deriving Repr, Inhabited

/-- The kind of a collection. -/
def Container.kind : Container → Collection
  | list _ => .list
  | tuple _ => .tuple
  | mapping _ => .mapping

/-- Whether the collection holds nothing. -/
def Container.isEmpty : Container → Bool
  | list items => items.isEmpty
  | tuple items => items.isEmpty
  | mapping pairs => pairs.isEmpty

/-- Collections by their places. -/
structure Store where
  containers : Array Container := #[]
  deriving Repr, Inhabited

namespace Store

/-- The collection at a place. -/
def get? (s : Store) (place : Nat) : Option Container :=
  s.containers[place]?

/-- The store with one more collection, and its place. -/
def alloc (s : Store) (c : Container) : Nat × Store :=
  (s.containers.size, { containers := s.containers.push c })

/-- The store with another collection at a place. -/
def set (s : Store) (place : Nat) (c : Container) : Store :=
  { containers := s.containers.setIfInBounds place c }

/-- All places. -/
def places (s : Store) : List Nat :=
  List.range s.containers.size

/-! ### Unfolding -/

/-- Taking a place away leaves fewer places. -/
theorem length_erase_lt {place : Nat} {free : List Nat} (h : place ∈ free) :
    (free.erase place).length < free.length := by
  have := List.length_pos_of_mem h
  rw [List.length_erase_of_mem h]
  omega

/-- The finite value of a datum, where `free` are the places that are not being unfolded already. -/
def unfold (s : Store) (free : List Nat) : Datum → Value
  | .leaf v => v
  | .ref place =>
    match s.get? place with
    | none => .null
    | some c =>
      if _free : place ∈ free then
        match c with
        | .list items => .list (items.map fun d => unfold s (free.erase place) d)
        | .tuple items => .tuple (items.map fun d => unfold s (free.erase place) d)
        | .mapping pairs => .mapping (pairs.map fun p => (p.1, unfold s (free.erase place) p.2))
      else .again c.kind
termination_by free.length
decreasing_by
  all_goals exact length_erase_lt ‹_›

/-- The finite value of a datum. -/
def value (s : Store) (d : Datum) : Value :=
  s.unfold s.places d

@[simp] theorem unfold_leaf (s : Store) (free : List Nat) (v : Value) :
    s.unfold free (.leaf v) = v := by
  rw [unfold]

/-! ### Questions about one datum -/

/-- The text of a datum that is meant for reading. -/
def plain (s : Store) (d : Datum) : String :=
  (s.value d).plain

/-- Whether that text can be written. -/
def hasPlain (s : Store) (d : Datum) : Bool :=
  (s.value d).hasPlain

/-- Whether the literal of a datum can be written. -/
def hasLiteral (s : Store) (d : Datum) : Bool :=
  (s.value d).hasLiteral

/-- Whether a datum is neither absent, zero, false nor empty. -/
def isTruthy (s : Store) : Datum → Bool
  | .leaf v => v.isTruthy
  | .ref place => (s.get? place).any fun c => !c.isEmpty

/-- The pairs of a mapping. -/
def mapping? (s : Store) : Datum → Option (List (Value × Datum))
  | .leaf _ => none
  | .ref place => match s.get? place with
    | some (.mapping pairs) => some pairs
    | _ => none

/-- The items of a list. -/
def list? (s : Store) : Datum → Option (List Datum)
  | .leaf _ => none
  | .ref place => match s.get? place with
    | some (.list items) => some items
    | _ => none

/-- No datum, the data of a list, or one datum. -/
def oneOrMany (s : Store) (d : Datum) : List Datum :=
  match d with
  | .leaf .null => []
  | d => (s.list? d).getD [d]

/-- The word for the kind of a datum. -/
def kindName (s : Store) : Datum → String
  | .leaf v => v.kindName
  | .ref place => ((s.get? place).map fun c => c.kind.word).getD Value.null.kindName

end Store

/-- Whether a value is this text. -/
def Value.isText (name : String) : Value → Bool
  | .text s => s == name
  | _ => false

/-- The datum under a name, `null` if there is none. -/
def named (name : String) (pairs : List (Value × Datum)) : Datum :=
  match pairs.find? fun p => p.1.isText name with
  | some p => p.2
  | none => .leaf .null

end Bibliograph
