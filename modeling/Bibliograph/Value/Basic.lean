import Bibliograph.Person
import Bibliograph.WebAddress

/-!
# Field values

The values that the fields of an entry hold: plain data, the typed values that the fields `date`,
`url`, `author` and `editor` get when they are loaded, and finite collections of values.

Main definitions:

* `Value`: the values;
* `Value.isPresent`: whether a field with this value counts as set;
* `Value.isTruthy`: whether the value is neither empty nor a zero;
* `Value.parts?`: the parts of a value that has parts;
* `Value.number?`: the number that a value stands for;
* `Value.same`: equality of values;
* `Value.ofPerson`: a person as a value.

Numbers compare by value and a truth value is the number 0 or 1.  Lists and tuples differ, and the
order of a mapping does not matter.  What is not a number equals only what has the same origin.

Main results:

* `Value.isPresent_null`, `Value.isPresent_text`: an unset field and an empty text are not present;
* `Value.same_null_left`: only `null` is equal to `null`.
-/

set_option autoImplicit false

namespace Bibliograph

/-- The kinds of collections. -/
inductive Collection where
  | list
  | tuple
  | mapping
  deriving Repr, DecidableEq

/-- A value of a field.  The parts of a person that are not given are `null`.  A collection that
holds itself is shown as `again` in its own inside. -/
inductive Value where
  | null
  | bool (b : Bool)
  | int (n : Int)
  | float (x : Number.Binary64)
  | notANumber (origin : Nat)
  | text (s : String)
  | day (d : Calendar.Day)
  | moment (m : Calendar.Moment)
  | date (d : Date)
  | person (name : String) (given leading suffix pseudonym : Value)
  | url (u : WebAddress)
  | list (items : List Value)
  | tuple (items : List Value)
  | mapping (pairs : List (Value × Value))
  | again (kind : Collection)
  deriving Repr, Inhabited

namespace Value

/-- A text, or `null` for a part that is not given. -/
def ofText? : Option String → Value
  | none => null
  | some s => text s

/-- A person as a value. -/
def ofPerson (p : Person) : Value :=
  person p.name (ofText? p.given) (ofText? p.leading) (ofText? p.suffix) (ofText? p.pseudonym)

/-! ### Presence -/

/-- A field counts as set unless its value is `null`, an empty text or collection, or an empty
address. -/
def isPresent : Value → Bool
  | null => false
  | text s => s ≠ ""
  | list items => !items.isEmpty
  | tuple items => !items.isEmpty
  | mapping pairs => !pairs.isEmpty
  | url u => u.address ≠ ""
  | _ => true

@[simp] theorem isPresent_null : isPresent null = false := rfl

@[simp] theorem isPresent_text (s : String) : isPresent (text s) = decide (s ≠ "") := rfl

/-- Whether the value is neither absent nor a zero nor false. -/
def isTruthy : Value → Bool
  | bool b => b
  | int n => n ≠ 0
  | float x => !x.isZero
  | v => v.isPresent

/-! ### Parts -/

/-- The items of a list or a tuple, the keys of a mapping, the characters of a text; other values
have no parts. -/
def parts? : Value → Option (List Value)
  | list items => some items
  | tuple items => some items
  | mapping pairs => some (pairs.map Prod.fst)
  | text s => some (s.toList.map fun c => text (String.singleton c))
  | _ => none

/-! ### Equality -/

/-- An exact number. -/
inductive Quantity where
  | whole (n : Int)
  | binary (x : Number.Binary64)
  deriving Repr, DecidableEq

/-- Whether two exact numbers are equal. -/
def Quantity.equals : Quantity → Quantity → Bool
  | .whole m, .whole n => m == n
  | .whole m, .binary x => x.equalsInt m
  | .binary x, .whole n => x.equalsInt n
  | .binary x, .binary y => x.equals y

/-- The number that a value stands for in comparisons. -/
def number? : Value → Option Quantity
  | bool b => some (.whole (if b then 1 else 0))
  | int n => some (.whole n)
  | float x => some (.binary x)
  | _ => none

/-- Whether two values stand for the same number. -/
def sameNumber (v w : Value) : Bool :=
  match v.number?, w.number? with
  | some x, some y => x.equals y
  | _, _ => false

mutual

/-- Whether two values are equal. -/
def same : Value → Value → Bool
  | null, w => match w with | null => true | _ => false
  | bool b, w => sameNumber (bool b) w
  | int n, w => sameNumber (int n) w
  | float x, w => sameNumber (float x) w
  | notANumber i, w => match w with | notANumber j => i == j | _ => false
  | text s, w => match w with | text t => s == t | _ => false
  | day d, w => match w with | day e => d == e | _ => false
  | moment m, w => match w with | moment n => m.same n | _ => false
  | date d, w => match w with | date e => d == e | _ => false
  | person n g l s a, w => match w with
    | person n' g' l' s' a' => n == n' && same g g' && same l l' && same s s' && same a a'
    | _ => false
  | url u, w => match w with | url v => u == v | _ => false
  | list xs, w => match w with | list ys => sameAll xs ys | _ => false
  | tuple xs, w => match w with | tuple ys => sameAll xs ys | _ => false
  | mapping xs, w => match w with
    | mapping ys => xs.length == ys.length && within xs ys
    | _ => false
  | again k, w => match w with | again l => k == l | _ => false

/-- Whether two sequences of values are equal. -/
def sameAll : List Value → List Value → Bool
  | [], ys => ys.isEmpty
  | x :: xs, ys => match ys with
    | [] => false
    | y :: ys => same x y && sameAll xs ys

/-- Whether every pair of the first list equals some pair of the second. -/
def within : List (Value × Value) → List (Value × Value) → Bool
  | [], _ => true
  | (k, v) :: xs, ys => (ys.any fun p => same k p.1 && same v p.2) && within xs ys

end

instance : BEq Value := ⟨same⟩

theorem same_null_left (w : Value) : same null w ↔ w = null := by
  cases w <;> simp [same]

end Value

end Bibliograph
