import Bibliograph.Store

/-!
# Fields from decoded data

Some fields have typed values: the date, the web address, and the persons among authors and
editors.  Other fields keep their data; a list becomes a tuple.

Where a datum is to be turned into text and cannot be, because an integer in it has too many
digits, this is a fault like any other one.  The same is said instead of a fault that was to show
such a datum.

Main definitions:

* `Loading.FieldFault`: why a datum cannot be the value of a field;
* `Loading.textOf`: the text of a datum;
* `Loading.dateOf`, `Loading.urlOf`, `Loading.personOf`: typed values from data;
* `Loading.fieldOf`: the value of a field from its datum.

Main results:

* `Loading.textOf_eq_ok_iff`: a datum has a text if no integer in it has too many digits.
-/

set_option autoImplicit false

namespace Bibliograph.Loading

/-- Why a datum cannot be the value of a field. -/
inductive FieldFault where
  | date (fault : DateFault) (v : Value)
  | person (fault : PersonFault) (v : Value)
  | addressless (v : Value)
  | overlong

/-- What is said in front of the literal of a value. -/
def shown (before : String) (v : Value) : String :=
  if v.hasLiteral then before ++ v.literal else Number.unwritable

/-- What is said about the fault. -/
def FieldFault.message : FieldFault → String
  | date .malformed v => shown "invalid date: " v
  | date .month v => shown "month out of range in date " v
  | date .day v => shown "day out of range in date " v
  | person .nameless v => shown "person without a name: " v
  | person .tooManyCommas v => shown "too many commas in person: " v
  | addressless v => shown "url without a value: " v
  | overlong => Number.unwritable

/-- The text of a datum. -/
def textOf (s : Store) (d : Datum) : Except FieldFault String :=
  if s.hasPlain d then .ok (s.plain d) else .error .overlong

theorem textOf_eq_ok_iff {s : Store} {d : Datum} {t : String} :
    textOf s d = .ok t ↔ s.hasPlain d = true ∧ s.plain d = t := by
  unfold textOf
  split <;> simp_all

/-- The date that a datum stands for: an integer is a year, a full day is itself, all else is read
as text. -/
def dateOf (s : Store) (d : Datum) : Except FieldFault Date :=
  match d with
  | .leaf (.bool b) => .error (.date .malformed (.bool b))
  | .leaf (.int n) => .ok { year := n }
  | .leaf (.day day) => .ok (.ofDay day)
  | .leaf (.moment m) => .ok (.ofDay m.day)
  | .leaf (.date date) => .ok date
  | d => do (Date.ofText (← textOf s d)).mapError fun fault => .date fault (s.value d)

/-- A text without the blanks around it. -/
def address (s : Store) (d : Datum) : Except FieldFault String :=
  (textOf s d).map Text.trimmed

/-- The web address that a datum stands for: a mapping with a `value` and possibly a `date`, or
the text of anything else. -/
def urlOf (s : Store) (d : Datum) : Except FieldFault WebAddress :=
  match s.mapping? d with
  | none => do return { address := ← address s d }
  | some pairs =>
    let value := named "value" pairs
    if s.isTruthy value then do
      let address ← address s value
      match named "date" pairs with
      | .leaf .null => return { address }
      | visited => return { address, visited := some (← dateOf s visited) }
    else .error (.addressless (s.value d))

/-- The person that a datum stands for: a mapping with a `name` and further parts, or the text of
anything else. -/
def personOf (s : Store) (d : Datum) : Except FieldFault Value :=
  match s.mapping? d with
  | none => do
    match Person.ofText (← textOf s d) with
    | .ok p => return .ofPerson p
    | .error fault => .error (.person fault (s.value d))
  | some pairs =>
    let name := named "name" pairs
    if s.isTruthy name then do
      return .person (← textOf s name) (s.value (named "given-name" pairs))
        (s.value (named "prefix" pairs)) (s.value (named "suffix" pairs))
        (s.value (named "alias" pairs))
    else .error (.person .nameless (s.value d))

/-- The value of a field from its datum. -/
def fieldOf (s : Store) (name : String) (d : Datum) : Except FieldFault Value :=
  if name = "date" then (dateOf s d).map .date
  else if name = "url" then (urlOf s d).map .url
  else if name = "author" ∨ name = "editor" then
    ((s.oneOrMany d).mapM (personOf s)).map .tuple
  else match s.list? d with
    | some items => .ok (.tuple (items.map s.value))
    | none => .ok (s.value d)

end Bibliograph.Loading
