/-!
# Spans of code points

A character property is written down as a short list of spans: runs of code points at a fixed
stride.  Case pairs such as `Ā ā Ă ă …` alternate, so a stride of two keeps their tables small.

Main definitions:

* `Text.Span`: the code points `first`, `first + stride`, … up to `last`;
* `Text.Span.covers`: membership in one span;
* `Text.anyCovers`: membership in a table.

Main results:

* `Text.Span.covers_iff`: membership, said with arithmetic only;
* `Text.anyCovers_iff`: a table holds what one of its spans holds.
-/

set_option autoImplicit false

namespace Bibliograph.Text

/-- The code points from `first` to `last`, `stride` apart. -/
structure Span where
  first : Nat
  last : Nat
  stride : Nat := 1
  deriving Repr, DecidableEq

/-- Whether the code point `c` lies on the span. -/
def Span.covers (s : Span) (c : Nat) : Bool :=
  s.first ≤ c && c ≤ s.last && (c - s.first) % s.stride == 0

theorem Span.covers_iff (s : Span) (c : Nat) :
    s.covers c ↔ s.first ≤ c ∧ c ≤ s.last ∧ (c - s.first) % s.stride = 0 := by
  simp [Span.covers, and_assoc]

/-- Whether some span of the table holds the character. -/
def anyCovers (table : List Span) (c : Char) : Bool :=
  table.any fun s => s.covers c.toNat

theorem anyCovers_iff (table : List Span) (c : Char) :
    anyCovers table c ↔ ∃ s ∈ table, s.covers c.toNat := by
  simp [anyCovers]

end Bibliograph.Text
