import Bibliograph.Yaml.Problem

/-!
# Places in a text

Indentation carries meaning in a document, so whoever reads one keeps track of line and column.

Main definitions:

* `Yaml.isBreak`, `Yaml.isGap`: the characters that end lines and words;
* `Yaml.Cursor`: what is left of a text, with line and column;
* `Yaml.Reader`: computations that move a cursor and may fail;
* `Yaml.lineBreaks`, `Yaml.folded`: what stands for the line breaks inside a scalar.

Main results:

* `Yaml.Cursor.rest_skip`: moving on leaves out as many characters;
* `Yaml.Cursor.index_skip_le`: the index grows by at most as much.
-/

set_option autoImplicit false

namespace Bibliograph.Yaml

/-! ### Classes of characters -/

/-- The characters that end a line. -/
def isBreak (c : Char) : Bool :=
  c == '\n' || c == '\r' || c == '\x85' || c == '\u2028' || c == '\u2029'

/-- The characters that end a line, and the space. -/
def isSpaceOrBreak (c : Char) : Bool :=
  c == ' ' || isBreak c

/-- The characters that end a word: those that end a line, the space and the tab. -/
def isGap (c : Char) : Bool :=
  c == '\t' || isSpaceOrBreak c

/-- Whether a word ends before this character, or at the end of the text. -/
def endsWord (c : Option Char) : Bool :=
  c.all isGap

/-- Whether a part of a line that a tab does not end, ends before this character. -/
def endsPart (c : Option Char) : Bool :=
  c.all isSpaceOrBreak

/-- Letters, digits, hyphen and underscore make up the names of anchors, handles and directives. -/
def isNameChar (c : Char) : Bool :=
  c.isAlphanum || c == '-' || c == '_'

/-- The mark that may stand in front of a text; it takes no room. -/
def byteOrderMark : Char := '\ufeff'

/-- The characters that a document may hold. -/
def isAllowed (c : Char) : Bool :=
  let n := c.toNat
  n == 0x09 || n == 0x0A || n == 0x0D || (0x20 ≤ n && n ≤ 0x7E) || n == 0x85 ||
    (0xA0 ≤ n && n ≤ 0xD7FF) || (0xE000 ≤ n && n ≤ 0xFFFD) || 0x10000 ≤ n

/-! ### Cursors -/

/-- What is left of a text, and where that starts. -/
structure Cursor where
  rest : List Char
  index : Nat := 0
  line : Nat := 0
  column : Nat := 0
  deriving Repr, DecidableEq

namespace Cursor

/-- The cursor behind the next character.  A carriage return with a line feed behind it leaves the
end of the line to the line feed. -/
def next (c : Cursor) : Cursor :=
  match c.rest with
  | [] => c
  | x :: rest =>
    if isBreak x && !(x == '\r' && rest.head? == some '\n') then
      { rest, index := c.index + 1, line := c.line + 1, column := 0 }
    else
      let width := if x == byteOrderMark then 0 else 1
      { rest, index := c.index + 1, line := c.line, column := c.column + width }

/-- The cursor behind the next `n` characters. -/
def skip (c : Cursor) : Nat → Cursor
  | 0 => c
  | n + 1 => c.next.skip n

/-- The next character. -/
def peek? (c : Cursor) : Option Char :=
  c.rest.head?

/-- The character at a distance. -/
def peekAt? (c : Cursor) (n : Nat) : Option Char :=
  c.rest[n]?

/-- Whether three marks of this kind stand alone at the start of the line. -/
def atMarker (c : Cursor) (mark : Char) : Bool :=
  c.column == 0 && c.rest.take 3 == [mark, mark, mark] && endsWord (c.peekAt? 3)

/-- Whether a document starts or ends at this line. -/
def atSeparator (c : Cursor) : Bool :=
  c.atMarker '-' || c.atMarker '.'

@[simp] theorem rest_next (c : Cursor) : c.next.rest = c.rest.drop 1 := by
  obtain ⟨rest, index, line, column⟩ := c
  cases rest with
  | nil => rfl
  | cons x rest =>
    simp only [next, List.drop_succ_cons, List.drop_zero]
    split <;> rfl

theorem index_next_le (c : Cursor) : c.next.index ≤ c.index + 1 := by
  unfold next
  split
  · omega
  · split <;> simp

theorem rest_skip (c : Cursor) (n : Nat) : (c.skip n).rest = c.rest.drop n := by
  induction n generalizing c with
  | zero => rfl
  | succ n ih => rw [skip, ih, rest_next, List.drop_drop, Nat.add_comm 1 n]

theorem index_skip_le (c : Cursor) (n : Nat) : (c.skip n).index ≤ c.index + n := by
  induction n generalizing c with
  | zero => exact Nat.le_refl _
  | succ n ih =>
    have h := ih c.next
    have h' := index_next_le c
    rw [skip]
    omega

end Cursor

/-! ### Reading -/

/-- A computation that moves a cursor and may fail. -/
abbrev Reader (α : Type) := StateT Cursor (Except Problem) α

namespace Reader

/-- The next character. -/
def peek? : Reader (Option Char) :=
  return (← get).peek?

/-- The character at a distance. -/
def peekAt? (n : Nat) : Reader (Option Char) :=
  return (← get).peekAt? n

/-- Moves behind `n` characters. -/
def skip (n : Nat) : Reader Unit :=
  modify fun c => c.skip n

/-- The longest run of characters of a class. -/
def take (p : Char → Bool) : Reader (List Char) := do
  let run := (← get).rest.takeWhile p
  skip run.length
  return run

/-- Fails unless the condition holds. -/
def require (b : Bool) (p : Problem) : Reader Unit :=
  if b then return else throw p

/-- The end of a line, after a comment if there is one. -/
def endLine (p : Problem) : Reader Unit := do
  discard <| take (· == ' ')
  if (← peek?) == some '#' then discard <| take fun c => !isBreak c
  require ((← peek?).all isBreak) p
  if (← get).rest.take 2 == ['\r', '\n'] then skip 2 else skip 1

end Reader

/-! ### Line breaks inside scalars -/

/-- The line breaks of a run.  All of them are line feeds, apart from the two separators of
Unicode, which stay. -/
def lineBreaks : List Char → List Char
  | [] => []
  | '\r' :: '\n' :: cs => '\n' :: lineBreaks cs
  | c :: cs =>
    if c == '\u2028' || c == '\u2029' then c :: lineBreaks cs
    else if isBreak c then '\n' :: lineBreaks cs
    else lineBreaks cs

/-- What stands for line breaks between two words: one line feed gives a space, and of several the
first is left out. -/
def folded : List Char → List Char
  | ['\n'] => [' ']
  | '\n' :: more => more
  | breaks => breaks

end Bibliograph.Yaml
