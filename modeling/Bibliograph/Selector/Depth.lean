import Bibliograph.Selector.Tree

/-!
# Depth in syntax trees

The nodes of a syntax tree are its subtrees and the lists of names of its filters; lexemes are none.
A search for nodes that are too deep keeps the nodes to be looked at on a stack.  It takes the one on
top and puts its parts in its place, the last one on top, so it goes through the tree from right to
left, and of the nodes right below the limit it meets the rightmost one first.

Main definitions:

* `Selector.Node`: the nodes, with their parts from left to right;
* `Selector.Node.generation`: the nodes that are some levels below a node, from left to right;
* `Selector.firstBelow?`: the first node below a limit that the search meets;
* `Selector.Tree.firstBelow?`: the search from the root of a tree.

Main results:

* `Selector.Node.generation_ne_nil_iff`: a node has as many generations as it is high;
* `Selector.firstBelow?_eq`: **the search meets the last node of a generation**, whatever it has
  looked at before;
* `Selector.Tree.firstBelow?_isSome_iff`: it finds a node exactly if the tree is too high.
-/

set_option autoImplicit false

namespace Bibliograph.Selector

/-- A node of a syntax tree. -/
inductive Node where
  | tree (t : Tree)
  | fields (f : FieldList)
  deriving Repr, DecidableEq

/-- The nodes right below a tree, from left to right. -/
def Tree.parts : Tree → List Node
  | type _ _ => []
  | wildcard _ => []
  | group _ inner _ => [.tree inner]
  | capture _ _ inner => [.tree inner]
  | filter inner _ fields _ => [.tree inner, .fields fields]
  | negation _ inner => [.tree inner]
  | conjunction left _ right => [.tree left, .tree right]
  | alternative left _ right => [.tree left, .tree right]
  | parent child _ ancestor => [.tree child, .tree ancestor]

namespace Node

/-- The nodes right below a node, from left to right. -/
def parts : Node → List Node
  | tree t => t.parts
  | fields _ => []

/-- The lexemes of a node. -/
def lexemes : Node → List Lexeme
  | tree t => t.lexemes
  | fields f => f.lexemes

/-- The offset of the first lexeme. -/
def start : Node → Nat
  | tree t => t.start
  | fields f => f.first.offset

/-- The height of a node; a list of names has height one. -/
def height : Node → Nat
  | tree t => t.height
  | fields _ => 1

theorem height_pos (v : Node) : 0 < v.height := by
  cases v with
  | tree t => exact t.height_pos
  | fields f => exact Nat.one_pos

theorem head?_lexemes (v : Node) : (v.lexemes.head?).map Lexeme.offset = some v.start := by
  cases v with
  | tree t => exact t.head?_lexemes
  | fields f => rfl

/-- **The lexemes of the parts are lexemes of the node**, in the same order, and not all of them. -/
theorem lexemes_parts (v : Node) :
    (v.parts.flatMap lexemes).Sublist v.lexemes ∧
      (v.parts.flatMap lexemes).length < v.lexemes.length := by
  cases v with
  | fields f => simp [parts, lexemes, FieldList.lexemes]
  | tree t =>
    constructor
    · cases t <;> simp [parts, Tree.parts, lexemes, Tree.lexemes]
    · cases t <;> simp only [parts, Tree.parts, lexemes, Tree.lexemes, List.flatMap_cons,
        List.flatMap_nil, List.length_append, List.length_cons, List.length_nil] <;> omega

/-! ### Generations -/

/-- The nodes that are `n` levels below a node, from left to right. -/
def generation : Nat → Node → List Node
  | 0, v => [v]
  | n + 1, v => v.parts.flatMap (generation n)

/-- A node is one higher than its highest part. -/
theorem succ_lt_height_iff (n : Nat) (v : Node) :
    n + 1 < v.height ↔ ∃ w ∈ v.parts, n < w.height := by
  cases v with
  | fields f => simp [parts, height]
  | tree t =>
    cases t <;> simp only [parts, Tree.parts, List.mem_cons, List.not_mem_nil, or_false,
      exists_eq_or_imp, exists_eq_left, false_and, exists_false, iff_false, height,
      Tree.height] <;> omega

/-- A node has as many generations as it is high. -/
theorem generation_ne_nil_iff (n : Nat) (v : Node) : v.generation n ≠ [] ↔ n < v.height := by
  induction n generalizing v with
  | zero => simp [generation, v.height_pos]
  | succ n ih => simp [generation, succ_lt_height_iff, ← ih]

end Node

/-! ### The search -/

/-- What is left to be looked at, counted in lexemes. -/
def pendingLexemes (pending : List (Node × Nat)) : Nat :=
  (pending.flatMap fun p => p.1.lexemes).length

/-- With the parts in the place of the node less is left. -/
theorem pendingLexemes_parts_lt (v : Node) (depth depth' : Nat) (rest : List (Node × Nat)) :
    pendingLexemes ((v.parts.map fun w => (w, depth')).reverse ++ rest) <
      pendingLexemes ((v, depth) :: rest) := by
  have := v.lexemes_parts.2
  rw [List.length_flatMap] at this
  simpa [pendingLexemes, List.length_flatMap, List.sum_reverse, Function.comp_def] using this

/-- The start of the first node below the limit that is met.  The nodes to be looked at are given
with their depths, the next one first. -/
def firstBelow? (limit : Nat) : List (Node × Nat) → Option Nat
  | [] => none
  | (v, depth) :: rest =>
    if limit < depth then some v.start
    else firstBelow? limit ((v.parts.map fun w => (w, depth + 1)).reverse ++ rest)
termination_by pending => pendingLexemes pending
decreasing_by exact pendingLexemes_parts_lt v depth (depth + 1) rest

/-- **The search meets the last node of a generation**, that of the nodes right below the limit, in
the first of the pending nodes that has such nodes below it. -/
theorem firstBelow?_eq {limit : Nat} {pending : List (Node × Nat)}
    (h : ∀ p ∈ pending, p.2 ≤ limit + 1) :
    firstBelow? limit pending =
      pending.findSome? fun p => (p.1.generation (limit + 1 - p.2)).getLast?.map Node.start := by
  fun_induction firstBelow? limit pending with
  | case1 => rfl
  | case2 v depth rest hlimit =>
    obtain rfl : depth = limit + 1 := Nat.le_antisymm (h _ (List.mem_cons_self ..)) hlimit
    simp [Node.generation]
  | case3 v depth rest hlimit ih =>
    have hlevels : limit + 1 - depth = limit + 1 - (depth + 1) + 1 := by omega
    -- the parts are put on the stack from left to right, so the last one is looked at first
    have hlast : (v.generation (limit + 1 - depth)).getLast?.map Node.start =
        (v.parts.map fun w => (w, depth + 1)).reverse.findSome? fun p =>
          (p.1.generation (limit + 1 - p.2)).getLast?.map Node.start := by
      rw [hlevels, Node.generation, List.getLast?_flatMap, List.map_findSome?, ← List.map_reverse,
        List.findSome?_map]
      rfl
    have hpending : ∀ p ∈ (v.parts.map fun w => (w, depth + 1)).reverse ++ rest,
        p.2 ≤ limit + 1 := by
      intro p hp
      rcases List.mem_append.1 hp with hp | hp
      · obtain ⟨w, -, rfl⟩ := List.mem_map.1 (List.mem_reverse.1 hp)
        omega
      · exact h p (List.mem_cons_of_mem _ hp)
    rw [ih hpending, List.findSome?_append, ← hlast, List.findSome?_cons]
    cases (v.generation (limit + 1 - depth)).getLast?.map Node.start <;> rfl

/-- The start of the first node of a tree below the limit that the search meets. -/
def Tree.firstBelow? (limit : Nat) (t : Tree) : Option Nat :=
  Selector.firstBelow? limit [(.tree t, 1)]

theorem Tree.firstBelow?_eq (limit : Nat) (t : Tree) :
    t.firstBelow? limit = ((Node.tree t).generation limit).getLast?.map Node.start := by
  rw [firstBelow?, Selector.firstBelow?_eq (by simp)]
  simp

theorem Tree.firstBelow?_isSome_iff (limit : Nat) (t : Tree) :
    (t.firstBelow? limit).isSome ↔ limit < t.height := by
  rw [firstBelow?_eq, Option.isSome_map, List.getLast?_isSome]
  exact (Node.tree t).generation_ne_nil_iff limit

end Bibliograph.Selector
