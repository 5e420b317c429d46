import Bibliograph.EntryType

/-!
# Selector expressions

Main definitions:

* `Selector.Expr`: the expressions;
* `Selector.Expr.subterms`: an expression and all its parts, from left to right;
* `Selector.Expr.captures`: the names of its captures in the order of the text;
* `Selector.Expr.height`: the height of the expression as a tree;
* `Selector.Expr.toSource`: the expression as text with all parentheses.

An expression may hold a foreign part, which is not an expression at all; it can be neither printed
nor searched.

Main results:

* `Selector.Expr.subterms_eq_cons`: the expression itself comes first;
* `Selector.Expr.height_pos`: no expression is empty.
-/

set_option autoImplicit false

namespace Bibliograph.Selector

/-- The expressions of the selector language. -/
inductive Expr where
  /-- Entries of one type. -/
  | type (t : EntryType)
  /-- All entries. -/
  | any
  /-- Entries that do not match. -/
  | not (e : Expr)
  /-- Both sides match. -/
  | and (left right : Expr)
  /-- One of the two sides matches. -/
  | or (left right : Expr)
  /-- The entry matches, and so do its parents. -/
  | parent (child ancestor : Expr)
  /-- The entry matches and has a field. -/
  | filter (e : Expr) (field : String)
  /-- Binds the matching entry to a name. -/
  | capture (name : String) (e : Expr)
  /-- A text in the place of an expression. -/
  | foreign (s : String)
  deriving Repr, DecidableEq, Inhabited

/-- The text in the place of an expression that was met. -/
structure ForeignPart where
  text : String
  deriving Repr, DecidableEq

/-- What is said about a foreign part. -/
def ForeignPart.message (f : ForeignPart) : String :=
  "Unknown selector node: " ++ Text.quoted f.text

namespace Expr

/-- The word for the kind of an expression. -/
def word : Expr → String
  | type _ => "Type"
  | any => "Wildcard"
  | not _ => "Not"
  | and .. => "And"
  | or .. => "Or"
  | parent .. => "Parent"
  | filter .. => "AttrFilter"
  | capture .. => "Capture"
  | foreign _ => "str"

/-- The direct parts. -/
def children : Expr → List Expr
  | type _ => []
  | any => []
  | not e => [e]
  | and l r => [l, r]
  | or l r => [l, r]
  | parent c a => [c, a]
  | filter e _ => [e]
  | capture _ e => [e]
  | foreign _ => []

/-- The expression and all its parts, each before its own parts, from left to right. -/
def subterms : Expr → List Expr
  | type t => [type t]
  | any => [any]
  | not e => not e :: e.subterms
  | and l r => and l r :: (l.subterms ++ r.subterms)
  | or l r => or l r :: (l.subterms ++ r.subterms)
  | parent c a => parent c a :: (c.subterms ++ a.subterms)
  | filter e f => filter e f :: e.subterms
  | capture n e => capture n e :: e.subterms
  | foreign s => [foreign s]

theorem subterms_eq_cons (e : Expr) : ∃ rest, e.subterms = e :: rest := by
  cases e <;> simp [subterms]

/-- The name that a capture binds. -/
def captureName? : Expr → Option String
  | capture n _ => some n
  | _ => none

/-- The names of the captures in the order of the text. -/
def captures (e : Expr) : List String :=
  e.subterms.filterMap captureName?

/-- The height of the expression; an expression without parts has height one. -/
def height : Expr → Nat
  | type _ => 1
  | any => 1
  | not e => e.height + 1
  | and l r => max l.height r.height + 1
  | or l r => max l.height r.height + 1
  | parent c a => max c.height a.height + 1
  | filter e _ => e.height + 1
  | capture _ e => e.height + 1
  | foreign _ => 1

theorem height_pos (e : Expr) : 0 < e.height := by
  cases e <;> simp [height]

/-! ### Printing -/

/-- Whether the expression is a negation. -/
def isNot : Expr → Bool
  | not _ => true
  | _ => false

/-- The expression as text.  Every operator is in parentheses; a negation only under a filter,
which otherwise would go to what is negated. -/
def toSource : Expr → Except ForeignPart String
  | type t => .ok t.name
  | any => .ok "*"
  | not e => do return "!" ++ (← e.toSource)
  | and l r => do return "(" ++ (← l.toSource) ++ " & " ++ (← r.toSource) ++ ")"
  | or l r => do return "(" ++ (← l.toSource) ++ " | " ++ (← r.toSource) ++ ")"
  | parent c a => do return "(" ++ (← c.toSource) ++ " > " ++ (← a.toSource) ++ ")"
  | filter e f => do
    let inner ← e.toSource
    return (if e.isNot then "(" ++ inner ++ ")" else inner) ++ "[\"" ++ f ++ "\"]"
  | capture n e => do return "\"" ++ n ++ "\":(" ++ (← e.toSource) ++ ")"
  | foreign s => .error ⟨s⟩

end Expr

end Bibliograph.Selector
