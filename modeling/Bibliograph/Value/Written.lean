import Bibliograph.Text.Quoted
import Bibliograph.Value.Basic

/-!
# Values as text

A value has two text forms.  Its *literal* shows exactly what it is: texts in quotes, lists in
square brackets, tuples in round ones and mappings in braces.  Its *plain* form is meant for
reading: a text is itself, a date, a person or an address is written as such.

Main definitions:

* `Value.literal`: the literal;
* `Value.plain`: the plain form;
* `Value.hasLiteral`, `Value.hasPlain`: whether the two can be written, which they cannot if an
  integer in them has too many digits;
* `Value.kindName`: the word for the kind of a value.

Main results:

* `Value.plain_text`: the plain form of a text is the text;
* `Value.hasPlain_of_hasLiteral`: what has a literal has a plain form;
* `Value.literal_list_nil`, `Value.literal_tuple_singleton`: brackets of an empty list, and the
  comma that marks a tuple of one value.
-/

set_option autoImplicit false

namespace Bibliograph

/-! ### Calendar -/

/-- Two digits. -/
def twoDigits (n : Nat) : String :=
  String.ofList (Number.padded 2 n)

/-- A day as `YYYY-MM-DD`. -/
def Calendar.Day.plain (d : Calendar.Day) : String :=
  String.ofList (Number.padded 4 d.year) ++ "-" ++ twoDigits d.month ++ "-" ++ twoDigits d.day

/-- Natural numbers with commas between them. -/
def commaNumbers (ns : List Nat) : String :=
  ", ".intercalate (ns.map fun n : Nat => Number.decimal n)

/-- A day as a literal. -/
def Calendar.Day.literal (d : Calendar.Day) : String :=
  "datetime.date(" ++ commaNumbers [d.year, d.month, d.day] ++ ")"

/-- A distance from universal time as `+HH:MM`, with seconds where they are not zero. -/
def plainOffset (offset : Int) : String :=
  let n := offset.natAbs
  let seconds := if n % 60 = 0 then "" else ":" ++ twoDigits (n % 60)
  (if offset < 0 then "-" else "+") ++ twoDigits (n / 3600) ++ ":" ++ twoDigits (n / 60 % 60) ++
    seconds

/-- A distance from universal time as a literal: whole days and the seconds of a further day. -/
def literalOffset (offset : Int) : String :=
  if offset = 0 then "datetime.timezone.utc"
  else
    let days := offset / 86400
    let seconds := offset % 86400
    let parts := (if days = 0 then [] else ["days=" ++ Number.decimal days]) ++
      (if seconds = 0 then [] else ["seconds=" ++ Number.decimal seconds])
    "datetime.timezone(datetime.timedelta(" ++ ", ".intercalate parts ++ "))"

/-- A moment as `YYYY-MM-DD HH:MM:SS`, with microseconds where they are not zero. -/
def Calendar.Moment.plain (m : Calendar.Moment) : String :=
  let fraction :=
    if m.microsecond = 0 then "" else "." ++ String.ofList (Number.padded 6 m.microsecond)
  m.day.plain ++ " " ++ ":".intercalate ([m.hour, m.minute, m.second].map twoDigits) ++ fraction ++
    (m.offset.map plainOffset).getD ""

/-- A moment as a literal, without seconds and microseconds that are zero. -/
def Calendar.Moment.literal (m : Calendar.Moment) : String :=
  let fine :=
    if m.microsecond ≠ 0 then [m.second, m.microsecond]
    else if m.second ≠ 0 then [m.second] else []
  let numbers := [m.day.year, m.day.month, m.day.day, m.hour, m.minute] ++ fine
  let zone := (m.offset.map fun offset => ", tzinfo=" ++ literalOffset offset).getD ""
  "datetime.datetime(" ++ commaNumbers numbers ++ zone ++ ")"

/-! ### Typed values -/

/-- The literal of a number that may be missing. -/
def literalNat? : Option Nat → String
  | none => "None"
  | some n => Number.decimal n

/-- A date as a literal. -/
def Date.literal (d : Date) : String :=
  "Date(year=" ++ Number.decimal d.year ++ ", month=" ++ literalNat? d.month ++ ", day=" ++
    literalNat? d.day ++ ")"

/-- Whether no number of the literal has too many digits. -/
def Date.hasLiteral (d : Date) : Bool :=
  Number.isWithinLimit d.year && d.month.all (fun n : Nat => Number.isWithinLimit n) &&
    d.day.all (fun n : Nat => Number.isWithinLimit n)

/-- Whether no number of the written date has too many digits; a day counts after a month only. -/
def Date.hasPlain (d : Date) : Bool :=
  Number.isWithinLimit d.year && match d.month with
    | none => true
    | some month => Number.isWithinLimit month && d.day.all fun n : Nat => Number.isWithinLimit n

theorem Date.hasPlain_of_hasLiteral {d : Date} (h : d.hasLiteral = true) : d.hasPlain = true := by
  simp only [Date.hasLiteral, Bool.and_eq_true] at h
  obtain ⟨⟨hyear, hmonth⟩, hday⟩ := h
  cases hm : d.month with
  | none => simp [Date.hasPlain, hyear, hm]
  | some month =>
      rw [hm] at hmonth
      simp [Date.hasPlain, hyear, hm, hday, show Number.isWithinLimit month = true from hmonth]

/-- A web address as a literal. -/
def WebAddress.literal (u : WebAddress) : String :=
  "QualifiedUrl(value=" ++ Text.quoted u.address ++ ", visit_date=" ++
    ((u.visited.map Date.literal).getD "None") ++ ")"

/-! ### Values -/

/-- The word for a kind of collection. -/
def Collection.word : Collection → String
  | list => "list"
  | tuple => "tuple"
  | mapping => "dict"

/-- What stands for a collection in its own inside. -/
def Collection.elided : Collection → String
  | list => "[...]"
  | tuple => "(...)"
  | mapping => "\x7b...\x7d"

namespace Value

/-- The word for the kind of a value. -/
def kindName : Value → String
  | null => "NoneType"
  | bool _ => "bool"
  | int _ => "int"
  | float _ => "float"
  | notANumber _ => "float"
  | text _ => "str"
  | day _ => "date"
  | moment _ => "datetime"
  | date _ => "Date"
  | person .. => "Person"
  | url _ => "QualifiedUrl"
  | list _ => Collection.list.word
  | tuple _ => Collection.tuple.word
  | mapping _ => Collection.mapping.word
  | again kind => kind.word

/-- The parts of a literal one after another. -/
def concat (parts : List String) : String :=
  String.join parts

/-- The literals of a sequence with commas between them. -/
def commaList (items : List String) : String :=
  ", ".intercalate items

/-- The literals of a tuple in brackets; a comma marks a tuple of one value. -/
def tupleText : List String → String
  | [item] => concat ["(", item, ",)"]
  | items => concat ["(", commaList items, ")"]

mutual

/-- The text that shows exactly what a value is; it is written only if the value `hasLiteral`. -/
def literal : Value → String
  | null => "None"
  | bool b => if b then "True" else "False"
  | int n => Number.decimal n
  | float x => x.written
  | notANumber _ => "nan"
  | text s => Text.quoted s
  | day d => d.literal
  | moment m => m.literal
  | date d => d.literal
  | person name given leading suffix pseudonym =>
    concat ["Person(name=", Text.quoted name, ", given_name=", given.literal, ", prefix=",
      leading.literal, ", suffix=", suffix.literal, ", alias=", pseudonym.literal, ")"]
  | url u => u.literal
  | list items => concat ["[", commaList (literals items), "]"]
  | tuple items => tupleText (literals items)
  | mapping pairs => concat ["\x7b", commaList (literalPairs pairs), "\x7d"]
  | again kind => kind.elided

/-- The literals of a sequence of values. -/
def literals : List Value → List String
  | [] => []
  | v :: vs => v.literal :: literals vs

/-- The literals of the pairs of a mapping. -/
def literalPairs : List (Value × Value) → List String
  | [] => []
  | (k, v) :: ps => concat [k.literal, ": ", v.literal] :: literalPairs ps

end

/-- The text of a value that is meant for reading; it is written only if the value `hasPlain`. -/
def plain : Value → String
  | text s => s
  | day d => d.plain
  | moment m => m.plain
  | date d => d.written
  | person name given leading suffix _ =>
    Person.writtenParts name
      (if leading.isTruthy then some leading.plain else none)
      (if given.isTruthy then some given.plain else none)
      (if suffix.isTruthy then some suffix.plain else none)
  | url u => u.address
  | v => v.literal

@[simp] theorem plain_text (s : String) : plain (text s) = s := by
  simp [plain]

/-! ### Forms that cannot be written -/

mutual

/-- Whether no integer of the literal has too many digits. -/
def hasLiteral : Value → Bool
  | int n => Number.isWithinLimit n
  | date d => d.hasLiteral
  | person _ given leading suffix pseudonym =>
    given.hasLiteral && leading.hasLiteral && suffix.hasLiteral && pseudonym.hasLiteral
  | url u => u.visited.all Date.hasLiteral
  | list items => haveLiterals items
  | tuple items => haveLiterals items
  | mapping pairs => pairsHaveLiterals pairs
  | _ => true

/-- Whether all values of a sequence have literals. -/
def haveLiterals : List Value → Bool
  | [] => true
  | v :: vs => v.hasLiteral && haveLiterals vs

/-- Whether the keys and the values of a mapping have literals. -/
def pairsHaveLiterals : List (Value × Value) → Bool
  | [] => true
  | (k, v) :: ps => k.hasLiteral && v.hasLiteral && pairsHaveLiterals ps

end

/-- Whether no integer of the plain form has too many digits. -/
def hasPlain : Value → Bool
  | date d => d.hasPlain
  | person _ given leading suffix _ =>
    (!leading.isTruthy || leading.hasPlain) && (!given.isTruthy || given.hasPlain) &&
      (!suffix.isTruthy || suffix.hasPlain)
  | url _ => true
  | v => v.hasLiteral

theorem hasPlain_of_hasLiteral {v : Value} (h : v.hasLiteral = true) : v.hasPlain = true := by
  cases v with
  | date d =>
      rw [hasLiteral] at h
      exact Date.hasPlain_of_hasLiteral h
  | person name given leading suffix pseudonym =>
      simp only [hasLiteral, Bool.and_eq_true] at h
      obtain ⟨⟨⟨hgiven, hleading⟩, hsuffix⟩, -⟩ := h
      simp [hasPlain, hasPlain_of_hasLiteral hgiven, hasPlain_of_hasLiteral hleading,
        hasPlain_of_hasLiteral hsuffix]
  | _ => first | exact h | rfl

theorem literal_list_nil : literal (list []) = "[]" := by
  decide +kernel

theorem literal_tuple_singleton (v : Value) :
    literal (tuple [v]) = concat ["(", v.literal, ",)"] := by
  simp [literal, literals, tupleText]

end Value

end Bibliograph
