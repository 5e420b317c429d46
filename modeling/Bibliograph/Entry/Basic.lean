import Bibliograph.Assoc
import Bibliograph.EntryType
import Bibliograph.Value.Written

/-!
# Entries

An entry is a work that can be cited: a type, fields with values, and the works that contain it,
its parents, in order.

An entry has a key, which names it within a library, and an identity, which tells it apart from
every other entry that was made, even from one with the same content.  Neither takes part in
equality.

Main definitions:

* `Entry`: the entries;
* `Entry.get?`, `Entry.has`: the value of a field, if it is present;
* `Entry.parts?`: the parts of the value of a field, as for authors and editors;
* `Entry.same`: equality of content;
* `Entry.build`: makes an entry from a type that is given as text and parents that may be none.

Main results:

* `Entry.has_iff`: a field is there exactly when it has a value.
-/

set_option autoImplicit false

namespace Bibliograph

/-- What tells apart the entries that were made: the places, from the outside in, of the
declarations that made them. -/
abbrev Identity := List Nat

/-- A work that can be cited, with the works that contain it. -/
structure Entry where
  id : Identity
  key : String
  type : EntryType
  fields : List (String × Value)
  parents : List Entry
  deriving Repr, Inhabited

namespace Entry

/-! ### Fields -/

/-- The value of a field, unless it is absent or empty. -/
def get? (e : Entry) (name : String) : Option Value :=
  (e.fields.lookup name).filter Value.isPresent

/-- Whether the field is set to something that is not empty. -/
def has (e : Entry) (name : String) : Bool :=
  (e.get? name).isSome

theorem has_iff (e : Entry) (name : String) : e.has name ↔ ∃ v, e.get? name = some v := by
  simp [has, Option.isSome_iff_exists]

/-- The parts of the value of a field: none if the field is not there, no list at all if its value
has no parts. -/
def parts? (e : Entry) (name : String) : Option (List Value) :=
  match e.get? name with
  | none => some []
  | some v => v.parts?

/-- The entry as `key (type)`. -/
def plain (e : Entry) : String :=
  e.key ++ " (" ++ e.type.name ++ ")"

/-! ### Equality -/

/-- Whether two sets of fields have the same names with equal values. -/
def sameFields (fs gs : List (String × Value)) : Bool :=
  fs.length == gs.length &&
    fs.all fun f => match gs.lookup f.1 with
      | some v => f.2.same v
      | none => false

mutual

/-- Whether two entries have the same type, equal fields and equal parents in the same order. -/
def same : Entry → Entry → Bool
  | ⟨_, _, type, fields, parents⟩, e =>
    type == e.type && sameFields fields e.fields && sameAll parents e.parents

/-- Whether two sequences of entries are equal. -/
def sameAll : List Entry → List Entry → Bool
  | [], es => es.isEmpty
  | d :: ds, es => match es with
    | [] => false
    | e :: es => same d e && sameAll ds es

end

/-! ### Making entries -/

/-- Why no entry can be made. -/
inductive Fault where
  | unknownType (u : EntryType.Unknown)
  | strangeParent (key : String) (v : Value)
  /-- The literal of what is no parent has an integer with too many digits. -/
  | overlong

/-- What is said about the fault. -/
def Fault.message : Fault → String
  | unknownType u => u.message
  | strangeParent key v => "parent of " ++ Text.quoted key ++ " is not an Entry: " ++ v.literal
  | overlong => Number.unwritable

/-- The entries of a list in which everything is an entry. -/
def entriesOnly (key : String) : List (Entry ⊕ Value) → Except Fault (List Entry)
  | [] => .ok []
  | .inl e :: rest => (entriesOnly key rest).map (e :: ·)
  | .inr v :: _ => .error (if v.hasLiteral then .strangeParent key v else .overlong)

/-- An entry with the type that a text names; a later value of a field replaces an earlier one. -/
def build (id : Identity) (key type : String) (fields : List (String × Value))
    (parents : List (Entry ⊕ Value)) : Except Fault Entry := do
  let type ← (EntryType.ofText type).mapError .unknownType
  let parents ← entriesOnly key parents
  return { id, key, type, fields := Assoc.ofList fields, parents }

end Entry

end Bibliograph
