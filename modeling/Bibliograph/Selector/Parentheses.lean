/-!
# Matching of parentheses

Before a selector is read its parentheses are matched.  Those inside double quotes do not count;
there a backslash takes the next character with it, and a quote that is never closed reaches to the
end of the text.

Main definitions:

* `Selector.Quoting`: where a character stands with respect to quotes;
* `Selector.unmatched?`: the offset of a parenthesis without a partner: of a closing one where it
  is met, else of the opening one that was opened last.

Main results:

* `Selector.Quoting.next_plain`: outside quotes only a quote changes the state.
-/

set_option autoImplicit false

namespace Bibliograph.Selector

/-- Where a character stands with respect to double quotes. -/
inductive Quoting where
  | plain
  | quoted
  | escaped
  deriving Repr, DecidableEq

/-- Where the character after `c` stands. -/
def Quoting.next : Quoting → Char → Quoting
  | plain, c => if c = '"' then quoted else plain
  | quoted, c => if c = '\\' then escaped else if c = '"' then plain else quoted
  | escaped, _ => quoted

theorem Quoting.next_plain {c : Char} (h : c ≠ '"') : plain.next c = plain := by
  simp [next, h]

/-- The offset of a parenthesis without a partner in a text that starts at the offset `n`, where
`opened` are the offsets of the parentheses that are open, the last one first. -/
def unmatchedFrom (n : Nat) (q : Quoting) (opened : List Nat) : List Char → Option Nat
  | [] => opened.head?
  | c :: cs =>
    if q = .plain ∧ c = '(' then unmatchedFrom (n + 1) q (n :: opened) cs
    else if q = .plain ∧ c = ')' then
      match opened with
      | [] => some n
      | _ :: opened => unmatchedFrom (n + 1) q opened cs
    else unmatchedFrom (n + 1) (q.next c) opened cs

/-- The offset of a parenthesis without a partner, if there is one. -/
def unmatched? (s : String) : Option Nat :=
  unmatchedFrom 0 .plain [] s.toList

end Bibliograph.Selector
