import Bibliograph.Selector.Tree

/-!
# Reading selectors

A selector is read lexeme by lexeme.  What has been read is a draft: the constructs that are still
open, innermost first, and what is read at the moment.  A lexeme that no draft can go on with stops
the reading at once, so the place of a syntax error is the first one where the text cannot be
continued.

From loose to tight the operators are `>`, which groups to the right, `|` and `&`, which group to
the left, the negation `!`, the filter `[…]` and the capture `name:`, which takes a type, a star or
a group.

Main definitions:

* `Selector.Draft`: what has been read;
* `Selector.Draft.step?`: the draft after one more lexeme;
* `Selector.Draft.read`: the draft after several lexemes, or the first one that does not fit;
* `Selector.Draft.finish?`: the tree, if nothing is missing.

Main results:

* `Selector.Draft.read_append`: reading goes on where it was left.
-/

set_option autoImplicit false

namespace Bibliograph.Selector

/-- A construct whose last part is still to be read. -/
inductive Frame where
  | negation (bang : Nat)
  | conjunction (left : Tree) (mark : Nat)
  | alternative (left : Tree) (mark : Nat)
  | parent (child : Tree) (mark : Nat)
  | group (opening : Nat)
  | capture (name : NameAt) (colon : Nat)
  deriving Repr, DecidableEq

/-- What is being read. -/
inductive Focus where
  /-- An operand must follow. -/
  | operand
  /-- A bare name was read: a type, or the name of a capture. -/
  | name (text : String) (offset : Nat)
  /-- A quoted name was read: the name of a capture. -/
  | quoted (raw : String) (offset : Nat)
  /-- What a capture takes must follow. -/
  | primary
  /-- An operand was read. -/
  | complete (t : Tree)
  /-- The first name of a filter must follow. -/
  | firstField (t : Tree) (opening : Nat)
  /-- A name of a filter was read. -/
  | fields (t : Tree) (opening : Nat) (fields : FieldList)
  /-- Another name of a filter must follow. -/
  | nextField (t : Tree) (opening : Nat) (fields : FieldList) (comma : Nat)
  deriving Repr, DecidableEq

/-- A selector as far as it has been read. -/
structure Draft where
  frames : List Frame := []
  focus : Focus := .operand
  deriving Repr, DecidableEq

/-- How tightly operators hold their operands. -/
inductive Strength where
  | parent
  | alternative
  | conjunction
  | negation
  deriving Repr, DecidableEq

/-- The order of the strengths. -/
def Strength.rank : Strength → Nat
  | parent => 0
  | alternative => 1
  | conjunction => 2
  | negation => 3

/-- Completes the operators that hold at least as tightly as `s`, with `t` as the last operand. -/
def close (s : Strength) : List Frame → Tree → List Frame × Tree
  | .negation bang :: fs, t => close s fs (.negation bang t)
  | .conjunction left mark :: fs, t =>
    if s.rank ≤ Strength.conjunction.rank then close s fs (.conjunction left mark t)
    else (.conjunction left mark :: fs, t)
  | .alternative left mark :: fs, t =>
    if s.rank ≤ Strength.alternative.rank then close s fs (.alternative left mark t)
    else (.alternative left mark :: fs, t)
  | .parent child mark :: fs, t =>
    if s.rank ≤ Strength.parent.rank then close s fs (.parent child mark t)
    else (.parent child mark :: fs, t)
  | fs, t => (fs, t)

namespace Draft

/-- The draft after a type, a star or a group was read: a capture in front takes it. -/
def afterPrimary : List Frame → Tree → Draft
  | .capture name colon :: fs, t => ⟨fs, .complete (.capture name colon t)⟩
  | fs, t => ⟨fs, .complete t⟩

/-- The draft in which an operator with `t` on its left waits for its right operand. -/
def await (s : Strength) (frame : Tree → Frame) (fs : List Frame) (t : Tree) : Draft :=
  let (fs, t) := close s fs t
  ⟨frame t :: fs, .operand⟩

/-- The draft after a lexeme that follows the operand `t`. -/
def afterOperand? (fs : List Frame) (t : Tree) (l : Lexeme) : Option Draft :=
  match l.token with
  | .openBracket => some ⟨fs, .firstField t l.offset⟩
  | .ampersand => some (Draft.await .conjunction (.conjunction · l.offset) fs t)
  | .bar => some (Draft.await .alternative (.alternative · l.offset) fs t)
  | .greater => some (Draft.await .alternative (.parent · l.offset) fs t)
  | .closeParen => match close .parent fs t with
    | (.group opening :: fs, t) => some (afterPrimary fs (.group opening t l.offset))
    | _ => none
  | _ => none

/-- The draft after a lexeme. -/
def step? (d : Draft) (l : Lexeme) : Option Draft :=
  match d.focus, l.token with
  | .operand, .bang => some ⟨.negation l.offset :: d.frames, .operand⟩
  | .operand, .name (.bare text) => some ⟨d.frames, .name text l.offset⟩
  | .operand, .name (.quoted raw) => some ⟨d.frames, .quoted raw l.offset⟩
  | .operand, .star => some ⟨d.frames, .complete (.wildcard l.offset)⟩
  | .operand, .openParen => some ⟨.group l.offset :: d.frames, .operand⟩
  | .operand, _ => none
  | .name text offset, .colon =>
    some ⟨.capture ⟨.bare text, offset⟩ l.offset :: d.frames, .primary⟩
  | .name text offset, _ => afterOperand? d.frames (.type text offset) l
  | .quoted raw offset, .colon =>
    some ⟨.capture ⟨.quoted raw, offset⟩ l.offset :: d.frames, .primary⟩
  | .quoted _ _, _ => none
  | .primary, .name (.bare text) => some (afterPrimary d.frames (.type text l.offset))
  | .primary, .star => some (afterPrimary d.frames (.wildcard l.offset))
  | .primary, .openParen => some ⟨.group l.offset :: d.frames, .operand⟩
  | .primary, _ => none
  | .complete t, _ => afterOperand? d.frames t l
  | .firstField t opening, .name n => some ⟨d.frames, .fields t opening ⟨⟨n, l.offset⟩, []⟩⟩
  | .firstField _ _, _ => none
  | .fields t opening fields, .comma => some ⟨d.frames, .nextField t opening fields l.offset⟩
  | .fields t opening fields, .closeBracket =>
    some ⟨d.frames, .complete (.filter t opening fields l.offset)⟩
  | .fields _ _ _, _ => none
  | .nextField t opening fields comma, .name n =>
    some ⟨d.frames, .fields t opening (fields.snoc comma ⟨n, l.offset⟩)⟩
  | .nextField _ _ _ _, _ => none

/-- The draft after several lexemes, or the first lexeme that does not fit. -/
def read (d : Draft) : List Lexeme → Except Lexeme Draft
  | [] => .ok d
  | l :: ls => match d.step? l with
    | some d => d.read ls
    | none => .error l

theorem read_append (d : Draft) (ls ms : List Lexeme) :
    d.read (ls ++ ms) = (d.read ls).bind fun d => d.read ms := by
  induction ls generalizing d with
  | nil => rfl
  | cons l ls ih =>
    simp only [List.cons_append, read]
    cases d.step? l with
    | none => rfl
    | some d => exact ih d

/-- The tree of a draft in which nothing is open and nothing is missing. -/
def finish? (d : Draft) : Option Tree :=
  let done? (t : Tree) : Option Tree := match close .parent d.frames t with
    | ([], t) => some t
    | _ => none
  match d.focus with
  | .name text offset => done? (.type text offset)
  | .complete t => done? t
  | _ => none

end Draft

end Bibliograph.Selector
