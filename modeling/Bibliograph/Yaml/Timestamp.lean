import Bibliograph.Calendar
import Bibliograph.Number.Written
import Bibliograph.Value.Basic

/-!
# Timestamps

A timestamp is a date, or a date and a time of day with an optional fraction of a second and an
optional distance from universal time.

Main definitions:

* `Yaml.Timestamp`: a timestamp as it is written;
* `Yaml.Timestamp.read?`: the timestamp that a text writes;
* `Yaml.Timestamp.value?`: its value, if there is such a day and time.

Main results:

* `Yaml.length_of_digits?`: taken digits leave a shorter text.
-/

set_option autoImplicit false

namespace Bibliograph.Yaml

/-- A date, and a moment if a time of day is given. -/
structure Timestamp where
  day : Calendar.Day
  moment : Option Calendar.Moment
  deriving Repr, DecidableEq

/-- The number that the next digits write, at least `least` and at most `most` of them. -/
def digits? (least most : Nat) (cs : List Char) : Option (Nat × List Char) :=
  let run := (cs.take most).takeWhile Char.isDigit
  if run.length < least then none
  else (Number.readNat? 10 run).map fun n => (n, cs.drop run.length)

theorem length_of_digits? {least most n : Nat} {cs rest : List Char}
    (h : digits? least most cs = some (n, rest)) : rest.length + least ≤ cs.length := by
  simp only [digits?] at h
  split at h
  · simp at h
  · obtain ⟨m, _, e⟩ := Option.map_eq_some_iff.1 h
    have hr := (List.takeWhile_prefix (l := cs.take most) Char.isDigit).length_le
    have ht : (cs.take most).length ≤ cs.length := by
      rw [List.length_take]
      exact Nat.min_le_right _ _
    rw [← (Prod.mk.inj e).2]
    simp
    omega

/-- What follows a character. -/
def after? (c : Char) : List Char → Option (List Char)
  | [] => none
  | d :: cs => if c = d then some cs else none

/-- Whether a blank may stand around a time of day. -/
def isTimeBlank (c : Char) : Bool :=
  c == ' ' || c == '\t'

namespace Timestamp

/-- Year, month and day. -/
def readDay? (cs : List Char) : Option (Calendar.Day × List Char) := do
  let (year, cs) ← digits? 4 4 cs
  let (month, cs) ← digits? 1 2 (← after? '-' cs)
  let (day, cs) ← digits? 1 2 (← after? '-' cs)
  return (⟨year, month, day⟩, cs)

/-- What separates the day from the time. -/
def afterDay? (cs : List Char) : Option (List Char) :=
  match cs with
  | [] => none
  | c :: rest =>
    if c == 'T' || c == 't' then some rest
    else if isTimeBlank c then some (rest.dropWhile isTimeBlank)
    else none

/-- The microseconds behind the point; further digits are cut off. -/
def readFraction (cs : List Char) : Nat × List Char :=
  match cs with
  | '.' :: rest =>
    let run := rest.takeWhile Char.isDigit
    let micro := (Number.readNat? 10 ((run ++ List.replicate 6 '0').take 6)).getD 0
    (micro, rest.drop run.length)
  | _ => (0, cs)

/-- The distance from universal time in seconds; all of the text must be read. -/
def readOffset? (cs : List Char) : Option (Option Int) :=
  match cs, cs.dropWhile isTimeBlank with
  | [], _ => some none
  | _, ['Z'] => some (some 0)
  | _, sign :: rest => do
    if sign != '+' && sign != '-' then none
    else
      let (hours, rest) ← digits? 1 2 rest
      let minutes ← match rest with
        | [] => some 0
        | rest => do
          let (minutes, rest) ← digits? 2 2 (← after? ':' rest)
          if rest.isEmpty then some minutes else none
      let seconds : Int := (hours * 60 + minutes) * 60
      return some (if sign == '-' then -seconds else seconds)
  | _, [] => none

/-- The timestamp that a text writes. -/
def read? (cs : List Char) : Option Timestamp := do
  let (day, cs) ← readDay? cs
  if cs.isEmpty then return ⟨day, none⟩
  let (hour, cs) ← digits? 1 2 (← afterDay? cs)
  let (minute, cs) ← digits? 2 2 (← after? ':' cs)
  let (second, cs) ← digits? 2 2 (← after? ':' cs)
  let (microsecond, cs) := readFraction cs
  let offset ← readOffset? cs
  return ⟨day, some { day, hour, minute, second, microsecond, offset }⟩

/-- The value of a timestamp, if there is such a day and time. -/
def value? (t : Timestamp) : Option Value :=
  match t.moment with
  | none => if t.day.exists then some (.day t.day) else none
  | some m => if m.exists then some (.moment m) else none

/-- Whether a text that nothing else is said of is a timestamp: a bare date needs two digits for
its month and for its day. -/
def isImplied (cs : List Char) : Bool :=
  (read? cs).any fun t => t.moment.isSome || cs.length == 10

end Timestamp

end Bibliograph.Yaml
