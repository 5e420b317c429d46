import Bibliograph.Number.Written
import Bibliograph.Yaml.Cursor

/-!
# Quoted scalars

A quoted scalar may go on over several lines.  The blanks around its line breaks mean nothing, and
no line of it may look like the start or the end of a document.  Between single quotes a doubled
quote stands for one; between double quotes a backslash starts an escape, and one at the end of a
line joins the lines.

Main definitions:

* `Yaml.simpleEscapes`, `Yaml.codeEscapes`: the escapes;
* `Yaml.singleQuoted`, `Yaml.doubleQuoted`: the text of a scalar, read from behind its first quote.
-/

set_option autoImplicit false

namespace Bibliograph.Yaml

/-- The escapes of one character. -/
def simpleEscapes : List (Char × Char) := [
  ('0', '\x00'), ('a', '\x07'), ('b', '\x08'), ('t', '\t'), ('\t', '\t'), ('n', '\n'),
  ('v', '\x0b'), ('f', '\x0c'), ('r', '\r'), ('e', '\x1b'), (' ', ' '), ('"', '"'),
  ('\\', '\\'), ('/', '/'), ('N', '\x85'), ('_', '\xa0'), ('L', '\u2028'), ('P', '\u2029')]

/-- The escapes of a code point, with their number of hexadecimal digits. -/
def codeEscapes : List (Char × Nat) := [('x', 2), ('u', 4), ('U', 8)]

/-- Whether the character is a hexadecimal digit. -/
def isHexDigit (c : Char) : Bool :=
  c.isDigit || ('a' ≤ c && c ≤ 'f') || ('A' ≤ c && c ≤ 'F')

/-- A number of so many hexadecimal digits. -/
def hexNumber (width : Nat) : Reader Nat := do
  let digits := (← get).rest.take width
  Reader.require (digits.length == width && digits.all isHexDigit) .badEscape
  Reader.skip width
  return (Number.readNat? 16 digits).getD 0

/-- A run of blanks and breaks, with the line breaks in it folded. -/
def gap : Reader (List Char) := do
  let run ← Reader.take isGap
  Reader.require (!(← get).atSeparator) .separatorInQuote
  let breaks := lineBreaks run
  return if breaks.isEmpty then run else folded breaks

/-- What an escape stands for, read from behind its backslash. -/
def escaped : Reader (List Char) := do
  let some c ← Reader.peek? | throw .unclosedQuote
  -- the break behind the backslash goes, those of the empty lines below it stay
  if isBreak c then
    let run ← Reader.take isGap
    Reader.require (!(← get).atSeparator) .separatorInQuote
    return (lineBreaks run).drop 1
  Reader.skip 1
  match simpleEscapes.lookup c, codeEscapes.lookup c with
  | some d, _ => return [d]
  | none, some width =>
    let n ← hexNumber width
    if n.isValidChar then return [Char.ofNat n] else throw .badEscape
  | none, none => throw .badEscape

/-- The rest of a scalar in single quotes that has at most `room` characters. -/
def singleQuotedWithin : (room : Nat) → Reader (List Char)
  | 0 => throw .unclosedQuote
  | room + 1 => do
    let some c ← Reader.peek? | throw .unclosedQuote
    if isGap c then
      let blanks ← gap
      return blanks ++ (← singleQuotedWithin room)
    Reader.skip 1
    if c != '\'' then
      return c :: (← singleQuotedWithin room)
    if (← Reader.peek?) == some '\'' then
      Reader.skip 1
      return c :: (← singleQuotedWithin room)
    return []

/-- The text of a scalar in single quotes, read from behind the first one. -/
def singleQuoted : Reader (List Char) := do
  singleQuotedWithin ((← get).rest.length + 1)

/-- The rest of a scalar in double quotes that has at most `room` characters. -/
def doubleQuotedWithin : (room : Nat) → Reader (List Char)
  | 0 => throw .unclosedQuote
  | room + 1 => do
    let some c ← Reader.peek? | throw .unclosedQuote
    if isGap c then
      let blanks ← gap
      return blanks ++ (← doubleQuotedWithin room)
    Reader.skip 1
    if c == '"' then return []
    if c == '\\' then
      let cs ← escaped
      return cs ++ (← doubleQuotedWithin room)
    return c :: (← doubleQuotedWithin room)

/-- The text of a scalar in double quotes, read from behind the first one. -/
def doubleQuoted : Reader (List Char) := do
  doubleQuotedWithin ((← get).rest.length + 1)

end Bibliograph.Yaml
