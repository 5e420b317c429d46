import Bibliograph.Text.CaseTable

/-!
# Letter case

Main definitions:

* `Text.isLowercase`: the property Lowercase of one character;
* `Text.lower`: a text in small letters.

A capital sigma has two small forms.  At the end of a word, that is after a cased letter and not
before one, it becomes `ς`, elsewhere `σ`; characters that letter case ignores do not separate it
from its neighbours.  The dotted capital I becomes `i` followed by a combining dot.

Main results:

* `Text.lowerChar_ascii`: on ASCII only the capital letters change.
-/

set_option autoImplicit false

namespace Bibliograph.Text

/-- Whether the character has the property Lowercase. -/
def isLowercase (c : Char) : Bool :=
  anyCovers lowercaseSpans c

/-- The small letter of a character, whatever stands beside it. -/
def lowerChar (c : Char) : Char :=
  if c.toNat < 0x80 then c.toLower
  else match lowerShifts.find? fun row => row.1.covers c.toNat with
    | some row => Char.ofNat (c.toNat + row.2).toNat
    | none => c

theorem lowerChar_ascii {c : Char} (h : c.toNat < 0x80) : lowerChar c = c.toLower := by
  simp [lowerChar, h]

/-- Whether the first character that letter case does not ignore is a cased letter. -/
def startsCased (cs : List Char) : Bool :=
  match cs.dropWhile (anyCovers caseIgnorableSpans) with
  | [] => false
  | c :: _ => anyCovers casedSpans c

/-- A text in small letters, where `before` is what stands before it, last character first. -/
def lowerFrom (before : List Char) : List Char → List Char
  | [] => []
  | c :: rest =>
    let here :=
      if c = 'Σ' then
        if startsCased before && !startsCased rest then ['ς'] else ['σ']
      else if c = 'İ' then ['i', '\u0307']
      else [lowerChar c]
    here ++ lowerFrom (c :: before) rest

/-- The text in small letters. -/
def lower (cs : List Char) : List Char :=
  lowerFrom [] cs

end Bibliograph.Text
