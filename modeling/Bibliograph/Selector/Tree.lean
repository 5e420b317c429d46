import Bibliograph.Selector.Expr
import Bibliograph.Selector.Lexeme

/-!
# Syntax trees of selectors

A syntax tree keeps every lexeme of the selector with its offset, and the parentheses that only
group.  An expression is built from it from the leaves upwards and from left to right, so of two
faults the one further inside, or else further left, is reported.

Main definitions:

* `Selector.Tree`: the trees;
* `Selector.Tree.lexemes`: the lexemes of the tree from left to right;
* `Selector.Tree.start`: the offset of the first lexeme;
* `Selector.Tree.height`: the height, where groups and the name lists of filters count;
* `Selector.Tree.captures`: the capture names with their offsets, in the order of the text;
* `Selector.Tree.collected`: the same as they are met while the expression is built;
* `Selector.Tree.toExpr`: the expression that the tree means.

Main results:

* `Selector.Tree.head?_lexemes`: the tree starts where its first lexeme does;
* `Selector.Tree.collected_perm`: no capture name is lost on the way upwards.
-/

set_option autoImplicit false

namespace Bibliograph.Selector

/-- A name at an offset. -/
structure NameAt where
  name : Name
  offset : Nat
  deriving Repr, DecidableEq

/-- The name as a lexeme. -/
def NameAt.lexeme (n : NameAt) : Lexeme :=
  ⟨.name n.name, n.offset⟩

/-- The names of a filter: the first one, then each with the comma before it. -/
structure FieldList where
  first : NameAt
  more : List (Nat × NameAt) := []
  deriving Repr, DecidableEq

/-- All names in order. -/
def FieldList.names (f : FieldList) : List NameAt :=
  f.first :: f.more.map Prod.snd

/-- The lexemes of the list of names. -/
def FieldList.lexemes (f : FieldList) : List Lexeme :=
  f.first.lexeme :: f.more.flatMap fun m => [⟨.comma, m.1⟩, m.2.lexeme]

/-- The list with one more name. -/
def FieldList.snoc (f : FieldList) (comma : Nat) (n : NameAt) : FieldList :=
  { f with more := f.more ++ [(comma, n)] }

/-- A selector as it is written; the numbers are the offsets of its marks. -/
inductive Tree where
  | type (name : String) (offset : Nat)
  | wildcard (star : Nat)
  | group (opening : Nat) (inner : Tree) (closing : Nat)
  | capture (name : NameAt) (colon : Nat) (inner : Tree)
  | filter (inner : Tree) (opening : Nat) (fields : FieldList) (closing : Nat)
  | negation (bang : Nat) (inner : Tree)
  | conjunction (left : Tree) (mark : Nat) (right : Tree)
  | alternative (left : Tree) (mark : Nat) (right : Tree)
  | parent (child : Tree) (mark : Nat) (ancestor : Tree)
  deriving Repr, DecidableEq

namespace Tree

/-- The lexemes of the tree from left to right. -/
def lexemes : Tree → List Lexeme
  | type name offset => [⟨.name (.bare name), offset⟩]
  | wildcard star => [⟨.star, star⟩]
  | group opening inner closing =>
    ⟨.openParen, opening⟩ :: (inner.lexemes ++ [⟨.closeParen, closing⟩])
  | capture name colon inner => name.lexeme :: ⟨.colon, colon⟩ :: inner.lexemes
  | filter inner opening fields closing =>
    inner.lexemes ++ ⟨.openBracket, opening⟩ :: (fields.lexemes ++ [⟨.closeBracket, closing⟩])
  | negation bang inner => ⟨.bang, bang⟩ :: inner.lexemes
  | conjunction left mark right => left.lexemes ++ ⟨.ampersand, mark⟩ :: right.lexemes
  | alternative left mark right => left.lexemes ++ ⟨.bar, mark⟩ :: right.lexemes
  | parent child mark ancestor => child.lexemes ++ ⟨.greater, mark⟩ :: ancestor.lexemes

/-- The offset of the first lexeme. -/
def start : Tree → Nat
  | type _ offset => offset
  | wildcard star => star
  | group opening _ _ => opening
  | capture name _ _ => name.offset
  | filter inner _ _ _ => inner.start
  | negation bang _ => bang
  | conjunction left _ _ => left.start
  | alternative left _ _ => left.start
  | parent child _ _ => child.start

theorem head?_lexemes (t : Tree) : (t.lexemes.head?).map Lexeme.offset = some t.start := by
  induction t with
  | type => rfl
  | wildcard => rfl
  | group => rfl
  | capture => rfl
  | negation => rfl
  | filter inner o f c ih => cases h : inner.lexemes <;> simp_all [lexemes, start]
  | conjunction l m r ih _ => cases h : l.lexemes <;> simp_all [lexemes, start]
  | alternative l m r ih _ => cases h : l.lexemes <;> simp_all [lexemes, start]
  | parent l m r ih _ => cases h : l.lexemes <;> simp_all [lexemes, start]

/-! ### Height -/

/-- The height of the tree; a single name or star has height one. -/
def height : Tree → Nat
  | type _ _ => 1
  | wildcard _ => 1
  | group _ inner _ => inner.height + 1
  | capture _ _ inner => inner.height + 1
  | filter inner _ _ _ => max inner.height 1 + 1
  | negation _ inner => inner.height + 1
  | conjunction left _ right => max left.height right.height + 1
  | alternative left _ right => max left.height right.height + 1
  | parent child _ ancestor => max child.height ancestor.height + 1

theorem height_pos (t : Tree) : 0 < t.height := by
  cases t <;> simp [height]

/-! ### Meaning -/

/-- The capture names with the offsets at which they are written, in the order of the text. -/
def captures : Tree → List (String × Nat)
  | type _ _ => []
  | wildcard _ => []
  | group _ inner _ => inner.captures
  | capture name _ inner => (name.name.value, name.offset) :: inner.captures
  | filter inner _ _ _ => inner.captures
  | negation _ inner => inner.captures
  | conjunction left _ right => left.captures ++ right.captures
  | alternative left _ right => left.captures ++ right.captures
  | parent child _ ancestor => child.captures ++ ancestor.captures

/-- The capture names with their offsets as they are met from the leaves upwards: a capture comes
after those that it holds. -/
def collected : Tree → List (String × Nat)
  | type _ _ => []
  | wildcard _ => []
  | group _ inner _ => inner.collected
  | capture name _ inner => inner.collected ++ [(name.name.value, name.offset)]
  | filter inner _ _ _ => inner.collected
  | negation _ inner => inner.collected
  | conjunction left _ right => left.collected ++ right.collected
  | alternative left _ right => left.collected ++ right.collected
  | parent child _ ancestor => child.collected ++ ancestor.collected

theorem collected_perm (t : Tree) : t.collected.Perm t.captures := by
  induction t with
  | type => exact .nil
  | wildcard => exact .nil
  | group _ _ _ ih => exact ih
  | capture _ _ inner ih => exact List.perm_append_comm.trans (ih.cons _)
  | filter _ _ _ _ ih => exact ih
  | negation _ _ ih => exact ih
  | conjunction _ _ _ ihl ihr => exact ihl.append ihr
  | alternative _ _ _ ihl ihr => exact ihl.append ihr
  | parent _ _ _ ihc iha => exact ihc.append iha

/-- Why a tree means no expression. -/
inductive Fault where
  | emptyField (offset : Nat)
  | emptyCapture (offset : Nat)
  | unknownType (name : String) (offset : Nat)
  deriving Repr, DecidableEq

/-- The fields that the names of a filter mean, all of which must be nonempty. -/
def fieldNames : List NameAt → Except Fault (List String)
  | [] => .ok []
  | n :: rest =>
    if n.name.value = "" then .error (.emptyField n.offset)
    else (fieldNames rest).map (n.name.value :: ·)

/-- Filters for several fields, the first one innermost. -/
def filterAll (e : Expr) (fields : List String) : Expr :=
  fields.foldl Expr.filter e

/-- The expression that the tree means. -/
def toExpr : Tree → Except Fault Expr
  | type name offset => match EntryType.ofText name with
    | .ok t => .ok (.type t)
    | .error _ => .error (.unknownType name offset)
  | wildcard _ => .ok .any
  | group _ inner _ => inner.toExpr
  | capture name _ inner => do
    let e ← inner.toExpr
    if name.name.value = "" then .error (.emptyCapture name.offset)
    else .ok (.capture name.name.value e)
  | filter inner _ fields _ => do
    let e ← inner.toExpr
    return filterAll e (← fieldNames fields.names)
  | negation _ inner => do return .not (← inner.toExpr)
  | conjunction left _ right => do return .and (← left.toExpr) (← right.toExpr)
  | alternative left _ right => do return .or (← left.toExpr) (← right.toExpr)
  | parent child _ ancestor => do return .parent (← child.toExpr) (← ancestor.toExpr)

end Tree

end Bibliograph.Selector
