import Bibliograph.Selector.Name

/-!
# Lexemes of selectors

A selector is a sequence of names and of the marks `! * : [ ] ( ) > | & ,`.  Space, tab, form feed,
carriage return and line feed separate lexemes and mean nothing else.  A bare name is as long as it
can be.

Main definitions:

* `Selector.Token`, `Selector.Lexeme`: the lexemes, with the offset at which they start;
* `Selector.lex`: the lexemes of a text, up to the first character where no lexeme starts.

Main results:

* `Selector.lexFrom_nil`, `Selector.lexFrom_ignorable`, `Selector.lexFrom_mark`: how the reading
  goes on at a given character.
-/

set_option autoImplicit false

namespace Bibliograph.Selector

/-- The kinds of lexemes. -/
inductive Token where
  | name (n : Name)
  | bang
  | star
  | colon
  | openBracket
  | closeBracket
  | openParen
  | closeParen
  | greater
  | bar
  | ampersand
  | comma
  deriving Repr, DecidableEq

/-- A token with the offset of its first character. -/
structure Lexeme where
  token : Token
  offset : Nat
  deriving Repr, DecidableEq

/-- The text of a token as it is written. -/
def Token.source : Token → String
  | name n => n.source
  | bang => "!"
  | star => "*"
  | colon => ":"
  | openBracket => "["
  | closeBracket => "]"
  | openParen => "("
  | closeParen => ")"
  | greater => ">"
  | bar => "|"
  | ampersand => "&"
  | comma => ","

/-- The mark that is written with one character. -/
def mark? (c : Char) : Option Token :=
  if c = '!' then some .bang
  else if c = '*' then some .star
  else if c = ':' then some .colon
  else if c = '[' then some .openBracket
  else if c = ']' then some .closeBracket
  else if c = '(' then some .openParen
  else if c = ')' then some .closeParen
  else if c = '>' then some .greater
  else if c = '|' then some .bar
  else if c = '&' then some .ampersand
  else if c = ',' then some .comma
  else none

/-- The characters that may stand between lexemes. -/
def isIgnorable (c : Char) : Bool :=
  c == ' ' || c == '\t' || c == '\x0c' || c == '\r' || c == '\n'

/-- The characters that start a bare name. -/
def isNameStart (c : Char) : Bool :=
  c.isAlpha || c == '_'

/-- The characters that go on with a bare name. -/
def isNameChar (c : Char) : Bool :=
  c.isAlphanum || c == '_' || c == '-'

/-- The lexemes of a text, and the first character where none starts, with its offset. -/
structure Lexed where
  lexemes : List Lexeme
  stop : Option (Nat × Char)
  deriving Repr, DecidableEq

/-- One more lexeme in front. -/
def Lexed.cons (l : Lexeme) (r : Lexed) : Lexed :=
  { r with lexemes := l :: r.lexemes }

/-- The lexemes of a text that starts at an offset. -/
def lexFrom (n : Nat) : List Char → Lexed
  | [] => ⟨[], none⟩
  | c :: cs =>
    if isIgnorable c then lexFrom (n + 1) cs
    else match mark? c with
      | some t => (lexFrom (n + 1) cs).cons ⟨t, n⟩
      | none =>
        if isNameStart c then
          let run := cs.takeWhile isNameChar
          (lexFrom (n + 1 + run.length) (cs.dropWhile isNameChar)).cons
            ⟨.name (.bare (String.ofList (c :: run))), n⟩
        else if c = '"' then
          match _close : closeQuote cs with
          | some (raw, rest) =>
            (lexFrom (n + 2 + raw.length) rest).cons ⟨.name (.quoted (String.ofList raw)), n⟩
          | none => ⟨[], some (n, c)⟩
        else ⟨[], some (n, c)⟩
termination_by cs => cs.length
decreasing_by
  · simp
  · simp
  · have := (List.dropWhile_suffix (l := cs) isNameChar).length_le
    simp only [List.length_cons]
    omega
  · have := length_of_closeQuote ‹_›
    simp only [List.length_cons]
    omega

/-- The lexemes of a text. -/
def lex (s : String) : Lexed :=
  lexFrom 0 s.toList

@[simp] theorem lexFrom_nil (n : Nat) : lexFrom n [] = ⟨[], none⟩ := by
  rw [lexFrom]

theorem lexFrom_ignorable {c : Char} (h : isIgnorable c) (n : Nat) (cs : List Char) :
    lexFrom n (c :: cs) = lexFrom (n + 1) cs := by
  rw [lexFrom, if_pos h]

theorem lexFrom_mark {c : Char} {t : Token} (hi : isIgnorable c = false) (h : mark? c = some t)
    (n : Nat) (cs : List Char) :
    lexFrom n (c :: cs) = (lexFrom (n + 1) cs).cons ⟨t, n⟩ := by
  rw [lexFrom, if_neg (by simp [hi]), h]

end Bibliograph.Selector
