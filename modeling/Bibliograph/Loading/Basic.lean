import Bibliograph.Library
import Bibliograph.Loading.Field
import Bibliograph.Loading.Notice

/-!
# Loading libraries

A library is loaded from pairs of a key and a mapping.  In a mapping `type` names the type of the
entry, `parent` holds the mapping of one parent or a list of such mappings, and everything else is
a field.  A parent without a type gets the default parent type of the entry that declares it, and
every parent has the key of the entry at the top.

A mapping may be reached in several ways, and each way gives an entry of its own.  A mapping that
is met again on the way from the top to itself is an error.

Keys, the names of fields and declared types are turned into text.  Where an integer in one of them
has too many digits, there is no text and no fault of loading either: the run breaks off with an
error of its own, which names no entry.

The calls that are open at the same time are not limited here: as many as there are parents on a
way.  An interpreter's call stack may end before that, at some hundreds of parents.

Main definitions:

* `Loading.LoadFault`: why there is no library;
* `Loading.typeOf`, `Loading.fieldsOf`: the type and the fields that a mapping declares;
* `Loading.entryOf`: the entry of a mapping;
* `Loading.libraryOf`: the library of several pairs.

Main results:

* `Loading.entryOf_leaf`: only a mapping can be an entry.
-/

set_option autoImplicit false

namespace Bibliograph.Loading

/-- Why there is no library. -/
inductive LoadFault where
  | duplicateKey (d : DuplicateKey)
  | unreadable (problem : String)
  | noMapping
  | entryNoMapping (key kind : String)
  | ownAncestor (key : String)
  | untyped (key : String)
  | unknownType (key : String) (v : Value)
  | field (key name : String) (fault : FieldFault)
  /-- Not a fault of loading proper: a text has an integer with too many digits in it. -/
  | overlong

/-- What is said about the fault. -/
def LoadFault.message : LoadFault → String
  | duplicateKey d => d.message
  | unreadable problem => "invalid YAML: " ++ problem
  | noMapping => "a library must be a mapping between keys and entries"
  | entryNoMapping key kind => key ++ ": an entry must be a mapping, got " ++ kind
  | ownAncestor key => key ++ ": entry is its own ancestor"
  | untyped key => key ++ ": no entry type"
  | unknownType key v => key ++ ": unknown entry type " ++ v.literal
  | field key name fault => key ++ ": field " ++ Text.quoted name ++ ": " ++ fault.message
  | overlong => Number.unwritable

/-- The fault of a declaration that names no type: its literal is shown, if there is one. -/
def typeFault (s : Store) (key : String) (d : Datum) : LoadFault :=
  if s.hasLiteral d then .unknownType key (s.value d) else .overlong

/-- The type that a datum names. -/
def namedType (s : Store) (key : String) (d : Datum) : Except LoadFault EntryType :=
  if s.hasPlain d then (EntryType.ofText (s.plain d)).mapError fun _ => typeFault s key d
  else .error (typeFault s key d)

/-- The type that a declaration names, or the default for the parent of a `child`. -/
def typeOf (s : Store) (key : String) (child : Option EntryType) (d : Datum) :
    Noted LoadFault EntryType :=
  match d, child with
  | .leaf .null, none => .fail (.untyped key)
  | .leaf .null, some c => do
    .note (.parentType key c c.defaultParent)
    return c.defaultParent
  | d, _ => .ofExcept (namedType s key d)

/-- The fields of a mapping behind those that are there already; those that are `null` are left
out. -/
def fieldsOf (s : Store) (key : String) (fields : List (String × Value)) :
    List (Value × Datum) → Except LoadFault (List (String × Value))
  | [] => .ok fields
  | (name, d) :: rest =>
    if name.hasPlain then
      let name := name.plain
      match name, d with
      | "type", _ => fieldsOf s key fields rest
      | "parent", _ => fieldsOf s key fields rest
      | _, .leaf .null => fieldsOf s key fields rest
      | _, d => do
        -- names of different kinds may have the same text; then the later field stays
        let v ← (fieldOf s name d).mapError (.field key name)
        fieldsOf s key (Assoc.insert name v fields) rest
    else .error .overlong

/-- The entry of a datum, where `free` are the places that are not on the way to it. -/
def entryOf (s : Store) (free : List Nat) (id : Identity) (key : String)
    (child : Option EntryType) (d : Datum) : Noted LoadFault Entry :=
  match d, s.mapping? d with
  | .ref place, some pairs =>
    if _free : place ∈ free then do
      -- faults of the parents come before those of the fields
      let type ← typeOf s key child (named "type" pairs)
      let parents ← (s.oneOrMany (named "parent" pairs)).zipIdx.mapM fun p =>
        entryOf s (free.erase place) (id ++ [p.2]) key (some type) p.1
      let fields ← .ofExcept (fieldsOf s key [] pairs)
      return { id, key, type, fields, parents }
    else .fail (.ownAncestor key)
  | d, _ => .fail (.entryNoMapping key (s.kindName d))
termination_by free.length
decreasing_by exact Store.length_erase_lt ‹_›

theorem entryOf_leaf (s : Store) (free : List Nat) (id : Identity) (key : String)
    (child : Option EntryType) (v : Value) :
    entryOf s free id key child (.leaf v) = .fail (.entryNoMapping key v.kindName) := by
  rw [entryOf]
  · rfl
  · simp

/-- The library with the entries of further pairs, the first of which is at position `n`. -/
def pushAll (s : Store) (n : Nat) (l : Library) :
    List (Value × Datum) → Noted LoadFault Library
  | [] => .ok l
  | (key, d) :: rest =>
    if key.hasPlain then do
      let key := key.plain
      if l.contains key then .fail (.duplicateKey ⟨key⟩)
      else
        let e ← entryOf s s.places [n] key none d
        let l ← .ofExcept ((l.push e).mapError .duplicateKey)
        pushAll s (n + 1) l rest
    else .fail .overlong

/-- The library of pairs of a key and a mapping. -/
def libraryOf (s : Store) (pairs : List (Value × Datum)) : Noted LoadFault Library := do
  let l ← pushAll s 0 .empty pairs
  .note (.loaded l.size)
  return l

end Bibliograph.Loading
