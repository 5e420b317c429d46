/-!
# Blank characters

The blanks that surround a name, a date or a comma-separated part: the Unicode white space
together with the four information separators U+001C to U+001F.

Main definitions:

* `Text.isBlank`: the class;
* `Text.trim`: a text without the blanks at its two ends;
* `Text.words`: the maximal runs of characters that are not blank.

Main results:

* `Text.isBlank_of_isWhitespace`: every white space character of ASCII is blank;
* `Text.words_eq_nil_iff`: only a text of blanks has no word.
-/

set_option autoImplicit false

namespace Bibliograph.Text

/-- Unicode white space and the information separators. -/
def isBlank (c : Char) : Bool :=
  let n := c.toNat
  (0x09 ≤ n && n ≤ 0x0D) || (0x1C ≤ n && n ≤ 0x20) || n == 0x85 || n == 0xA0 || n == 0x1680 ||
    (0x2000 ≤ n && n ≤ 0x200A) || n == 0x2028 || n == 0x2029 || n == 0x202F || n == 0x205F ||
    n == 0x3000

theorem isBlank_of_isWhitespace {c : Char} (h : c.isWhitespace) : isBlank c := by
  simp only [Char.isWhitespace, Bool.or_eq_true, decide_eq_true_eq] at h
  rcases h with ((rfl | rfl) | rfl) | rfl <;> decide

/-- The text without the blanks it starts with. -/
def trimStart (cs : List Char) : List Char :=
  cs.dropWhile isBlank

/-- The text without the blanks it ends with. -/
def trimEnd (cs : List Char) : List Char :=
  (cs.reverse.dropWhile isBlank).reverse

/-- The text without the blanks at its two ends. -/
def trim (cs : List Char) : List Char :=
  trimEnd (trimStart cs)

/-- The text read so far, `word`, is the beginning of a word; `cs` is what follows. -/
def wordsFrom (word : List Char) : List Char → List (List Char)
  | [] => if word.isEmpty then [] else [word]
  | c :: cs =>
    if isBlank c then
      if word.isEmpty then wordsFrom [] cs else word :: wordsFrom [] cs
    else wordsFrom (word ++ [c]) cs

/-- The maximal runs of characters that are not blank, in order. -/
def words (cs : List Char) : List (List Char) :=
  wordsFrom [] cs

theorem wordsFrom_ne_nil (word : List Char) (h : word ≠ []) (cs : List Char) :
    wordsFrom word cs ≠ [] := by
  induction cs generalizing word with
  | nil => simp [wordsFrom, h]
  | cons c cs ih =>
    by_cases hc : isBlank c
    · simp [wordsFrom, hc, h]
    · simpa [wordsFrom, hc] using ih (word ++ [c]) (by simp)

theorem words_eq_nil_iff (cs : List Char) : words cs = [] ↔ ∀ c ∈ cs, isBlank c := by
  induction cs with
  | nil => simp [words, wordsFrom]
  | cons c cs ih =>
    by_cases hc : isBlank c
    · simpa [words, wordsFrom, hc] using ih
    · simp [words, wordsFrom, hc, wordsFrom_ne_nil]

/-- The text with the blanks at its two ends removed. -/
def trimmed (s : String) : String :=
  String.ofList (trim s.toList)

end Bibliograph.Text
