import Bibliograph.Text.Printable

/-!
# Quoted text

Messages show a text in quotes, on one line and without loss.  Single quotes are used unless the
text holds a single quote and no double quote.  The backslash and the quote in use are escaped,
tab, line feed and carriage return have an escape of one letter, and every other character that is
not printable is written by its code point in hexadecimal: two, four or eight digits, as few as
hold it.

Main definitions:

* `Text.hex`: a number in hexadecimal with a least number of digits;
* `Text.quoteFor`: the quote that a text is put in;
* `Text.escape`: one character inside quotes;
* `Text.quoted`: the text in quotes.

Main results:

* `Text.escape_printable`: a printable character stands for itself;
* `Text.quoteFor_eq_double_iff`: when double quotes are used.
-/

set_option autoImplicit false

namespace Bibliograph.Text

/-- The number in hexadecimal, with zeros in front up to `width` digits. -/
def hex (width n : Nat) : List Char :=
  let digits := Nat.toDigits 16 n
  List.replicate (width - digits.length) '0' ++ digits

/-- Single quotes, unless the text holds a single quote and no double quote. -/
def quoteFor (cs : List Char) : Char :=
  if '\'' ∈ cs ∧ '"' ∉ cs then '"' else '\''

theorem quoteFor_eq_double_iff (cs : List Char) :
    quoteFor cs = '"' ↔ '\'' ∈ cs ∧ '"' ∉ cs := by
  unfold quoteFor
  split <;> simp_all

/-- One character of a text that is quoted with `quote`. -/
def escape (quote c : Char) : List Char :=
  if c = quote ∨ c = '\\' then ['\\', c]
  else if c = '\t' then ['\\', 't']
  else if c = '\n' then ['\\', 'n']
  else if c = '\r' then ['\\', 'r']
  else if isPrintable c then [c]
  else if c.toNat < 0x100 then '\\' :: 'x' :: hex 2 c.toNat
  else if c.toNat < 0x10000 then '\\' :: 'u' :: hex 4 c.toNat
  else '\\' :: 'U' :: hex 8 c.toNat

theorem escape_printable {quote c : Char} (hq : c ≠ quote) (hb : c ≠ '\\')
    (hp : isPrintable c) : escape quote c = [c] := by
  have ht : c ≠ '\t' := by rintro rfl; exact absurd hp (by decide)
  have hn : c ≠ '\n' := by rintro rfl; exact absurd hp (by decide)
  have hr : c ≠ '\r' := by rintro rfl; exact absurd hp (by decide)
  simp [escape, hq, hb, ht, hn, hr, hp]

/-- The text in quotes, as messages show it. -/
def quoted (s : String) : String :=
  let cs := s.toList
  let quote := quoteFor cs
  String.ofList (quote :: cs.flatMap (escape quote) ++ [quote])

end Bibliograph.Text
