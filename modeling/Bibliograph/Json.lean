import Bibliograph.Text.Quoted

/-!
# JSON text

Results are written as JSON in ASCII alone: every character that is not printable ASCII is escaped,
one above the first 65536 by two surrogates.

Main definitions:

* `Json`: the values that occur in results;
* `Json.escape`, `Json.quoted`: characters and texts;
* `Json.write`: a value, on one line or with every item on a line of its own.

Main results:

* `Json.escape_of_printable`: a printable ASCII character stands for itself.
-/

set_option autoImplicit false

namespace Bibliograph

/-- The values that occur in results. -/
inductive Json where
  | null
  | text (s : String)
  | list (items : List Json)
  | object (fields : List (String × Json))

namespace Json

/-! ### Texts -/

/-- The letters that stand for characters behind a backslash. -/
def letters : List (Char × Char) := [
  ('"', '"'), ('\\', '\\'), ('\n', 'n'), ('\r', 'r'), ('\t', 't'), ('\x08', 'b'), ('\x0c', 'f')]

/-- The escape of one UTF-16 unit. -/
def unit (n : Nat) : List Char :=
  '\\' :: 'u' :: Text.hex 4 n

/-- A character inside quotes. -/
def escape (c : Char) : List Char :=
  let n := c.toNat
  match letters.lookup c with
  | some letter => ['\\', letter]
  | none =>
    if 0x20 ≤ n ∧ n ≤ 0x7E then [c]
    else if n < 0x10000 then unit n
    else unit (0xD800 + (n - 0x10000) / 0x400) ++ unit (0xDC00 + (n - 0x10000) % 0x400)

theorem escape_of_printable {c : Char} (hl : letters.lookup c = none)
    (hc : 0x20 ≤ c.toNat ∧ c.toNat ≤ 0x7E) : escape c = [c] := by
  simp [escape, hl, hc]

/-- A text in quotes. -/
def quoted (s : String) : String :=
  String.ofList ('"' :: s.toList.flatMap escape ++ ['"'])

/-! ### Values -/

/-- Items between brackets: on one line, or each on a line that is indented by `step` more than
the `margin`. -/
def enclose (step : Option Nat) (margin : Nat) (opening closing : String)
    (items : List String) : String :=
  let line (n : Nat) : String := String.ofList ('\n' :: List.replicate n ' ')
  match items, step with
  | [], _ => opening ++ closing
  | items, none => opening ++ ", ".intercalate items ++ closing
  | items, some step =>
    let inner := line (margin + step)
    opening ++ inner ++ ("," ++ inner).intercalate items ++ line margin ++ closing

mutual

/-- A value; with a `step` every item is on a line of its own. -/
def write (step : Option Nat) (margin : Nat) : Json → String
  | null => "null"
  | text s => quoted s
  | list items => enclose step margin "[" "]" (writeAll step (margin + step.getD 0) items)
  | object fields =>
    enclose step margin "\x7b" "\x7d" (writeFields step (margin + step.getD 0) fields)

/-- Several values. -/
def writeAll (step : Option Nat) (margin : Nat) : List Json → List String
  | [] => []
  | j :: js => write step margin j :: writeAll step margin js

/-- Several values with their names. -/
def writeFields (step : Option Nat) (margin : Nat) : List (String × Json) → List String
  | [] => []
  | (name, j) :: fields =>
    (quoted name ++ ": " ++ write step margin j) :: writeFields step margin fields

end

end Json

end Bibliograph
