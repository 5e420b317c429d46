import Bibliograph.Calendar
import Bibliograph.Number.Written

/-!
# Dates of publication

A date names a year and may name a month and a day of it.

Main definitions:

* `Date`: a year, a month if known, a day if known;
* `Date.ofText`: reads `YYYY`, `YYYY-MM` and `YYYY-MM-DD`, where leading zeros may be left out;
* `Date.written`: the date as text, padded with zeros.

Main results:

* `Date.valid_iff`: which months and days there are, in terms of numbers alone;
* `Date.ofParts_valid`: every date that is read names an existing month and day.
-/

set_option autoImplicit false

namespace Bibliograph

/-- A date of which at least the year is known. -/
structure Date where
  year : Int
  month : Option Nat := none
  day : Option Nat := none
  deriving Repr, DecidableEq

/-- Why a text is no date. -/
inductive DateFault where
  | malformed
  | month
  | day
  deriving Repr, DecidableEq

namespace Date

/-- Month and day exist, and a day comes with its month. -/
def Valid (d : Date) : Prop :=
  (∀ m ∈ d.month, 1 ≤ m ∧ m ≤ 12) ∧
    (∀ n ∈ d.day, ∃ m ∈ d.month, 1 ≤ n ∧ n ≤ Calendar.daysInMonth d.year m)

theorem valid_iff {d : Date} :
    d.Valid ↔ (∀ m ∈ d.month, 1 ≤ m ∧ m ≤ 12) ∧
      ∀ n ∈ d.day, ∃ m ∈ d.month, 1 ≤ n ∧
        (n ≤ 28 ∨ n = 29 ∧ (m = 2 → 4 ∣ d.year ∧ (100 ∣ d.year → 400 ∣ d.year)) ∨
          n = 30 ∧ m ≠ 2 ∨ n = 31 ∧ m ∉ [2, 4, 6, 9, 11]) := by
  simp only [Valid, Calendar.le_daysInMonth_iff]

/-- A number of at most `width` digits. -/
def number? (width : Nat) (cs : List Char) : Option Nat :=
  if cs.isEmpty || cs.length > width then none else Text.natOfDigits? cs

/-- The parts of a date between its dashes, checked against the calendar. -/
def ofParts (year : Int) (month day : Option Nat) : Except DateFault Date :=
  match month with
  | none => .ok { year := year }
  | some m =>
    if m < 1 ∨ 12 < m then .error .month
    else match day with
      | none => .ok { year := year, month := some m }
      | some d =>
        if d < 1 ∨ Calendar.daysInMonth year m < d then .error .day
        else .ok { year := year, month := some m, day := some d }

theorem ofParts_valid {year : Int} {month day : Option Nat} {d : Date}
    (h : ofParts year month day = .ok d) : d.Valid := by
  unfold ofParts at h
  split at h
  · cases h; simp [Valid]
  · split at h
    · cases h
    · split at h
      · cases h; simp [Valid]; omega
      · split at h
        · cases h
        · cases h; simp [Valid]; omega

/-- The digits of a date: a year of up to four digits, then month and day of up to two. -/
def digits? (cs : List Char) : Option (Nat × Option Nat × Option Nat) :=
  match cs.splitOn '-' with
  | [y] => do return (← number? 4 y, none, none)
  | [y, m] => do return (← number? 4 y, some (← number? 2 m), none)
  | [y, m, d] => do return (← number? 4 y, some (← number? 2 m), some (← number? 2 d))
  | _ => none

/-- Reads a date; blanks around it and a minus in front of the year are allowed. -/
def ofText (s : String) : Except DateFault Date :=
  let cs := Text.trim s.toList
  let negative := cs.head? = some '-'
  match digits? (if negative then cs.tail else cs) with
  | none => .error .malformed
  | some (y, month, day) => ofParts (if negative then -(y : Int) else y) month day

/-- The date of a full day. -/
def ofDay (d : Calendar.Day) : Date :=
  { year := d.year, month := some d.month, day := some d.day }

/-- The year with at least four characters, month and day with two digits. -/
def written (d : Date) : String :=
  let month := match d.month with
    | none => []
    | some m => '-' :: Number.padded 2 m ++
      match d.day with
      | none => []
      | some n => '-' :: Number.padded 2 n
  String.ofList (Number.padded 4 d.year ++ month)

end Date

end Bibliograph
