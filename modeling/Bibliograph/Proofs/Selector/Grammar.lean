import Bibliograph.Proofs.Selector.Spelling
import Bibliograph.Proofs.Sequence

/-!
# The grammar of selectors

The grammar is stratified: from loose to tight a selector is a relation, an alternation, a
conjunction, a negated, a filtered, a captured or a primary one.  Each stratum but the last has one
rule of its own and one that passes to the next stratum.

```
relation    ::= alternation | alternation ">" relation
alternation ::= conjunction | alternation "|" conjunction
conjunction ::= negated     | conjunction "&" negated
negated     ::= filtered    | "!" negated
filtered    ::= captured    | filtered "[" name ("," name)* "]"
captured    ::= primary     | name ":" primary
primary     ::= NAME        | "*"       | "(" relation ")"
```

A derivation keeps the rule of every step.  The syntax tree forgets the rules that only pass on, and
from the tree they can be recovered: no two derivations have the same tree.

Main definitions:

* `Selector.Stratum`, `Selector.Derivation`: the strata, and the derivations from a stratum;
* `Selector.Derivation.tree`: the syntax tree of a derivation;
* `Selector.Tree.Fits`: the trees of the derivations from a stratum;
* `Selector.Tree.Means`: the expression that a tree means;
* `Selector.Tree.BareNamed`: what the reader of a text ensures about the names of the tree.

Main results:

* `Selector.Derivation.tree_injective`: a tree has at most one derivation;
* `Selector.Tree.Fits.loosen`: what fits a stratum fits every looser one;
* `Selector.Tree.means_of_toExpr`, `Selector.Tree.Means.toExpr_eq`: the expression that is built is
  the one that the tree means;
* `Selector.Tree.Means.captures_eq`: a tree and its expression have the same captures.
-/

set_option autoImplicit false

namespace Bibliograph.Selector

/-- The strata of the grammar. -/
inductive Stratum where
  | relation
  | alternation
  | conjunction
  | negated
  | filtered
  | captured
  | primary
  deriving Repr, DecidableEq

/-- The order of the strata, from loose to tight. -/
def Stratum.rank : Stratum → Nat
  | relation => 0
  | alternation => 1
  | conjunction => 2
  | negated => 3
  | filtered => 4
  | captured => 5
  | primary => 6

/-- The derivations from a stratum; the numbers are the offsets of the marks. -/
inductive Derivation : Stratum → Type where
  | ofAlternation (d : Derivation .alternation) : Derivation .relation
  | parent (child : Derivation .alternation) (mark : Nat) (ancestor : Derivation .relation) :
      Derivation .relation
  | ofConjunction (d : Derivation .conjunction) : Derivation .alternation
  | alternative (left : Derivation .alternation) (mark : Nat) (right : Derivation .conjunction) :
      Derivation .alternation
  | ofNegated (d : Derivation .negated) : Derivation .conjunction
  | conjunction (left : Derivation .conjunction) (mark : Nat) (right : Derivation .negated) :
      Derivation .conjunction
  | ofFiltered (d : Derivation .filtered) : Derivation .negated
  | negation (bang : Nat) (inner : Derivation .negated) : Derivation .negated
  | ofCaptured (d : Derivation .captured) : Derivation .filtered
  | filter (inner : Derivation .filtered) (opening : Nat) (fields : FieldList) (closing : Nat) :
      Derivation .filtered
  | ofPrimary (d : Derivation .primary) : Derivation .captured
  | capture (name : NameAt) (colon : Nat) (inner : Derivation .primary) : Derivation .captured
  | type (name : String) (offset : Nat) : Derivation .primary
  | wildcard (star : Nat) : Derivation .primary
  | group (opening : Nat) (inner : Derivation .relation) (closing : Nat) : Derivation .primary

/-- The syntax tree of a derivation. -/
def Derivation.tree : {s : Stratum} → Derivation s → Tree
  | _, ofAlternation d => d.tree
  | _, parent child mark ancestor => .parent child.tree mark ancestor.tree
  | _, ofConjunction d => d.tree
  | _, alternative left mark right => .alternative left.tree mark right.tree
  | _, ofNegated d => d.tree
  | _, conjunction left mark right => .conjunction left.tree mark right.tree
  | _, ofFiltered d => d.tree
  | _, negation bang inner => .negation bang inner.tree
  | _, ofCaptured d => d.tree
  | _, filter inner opening fields closing => .filter inner.tree opening fields closing
  | _, ofPrimary d => d.tree
  | _, capture name colon inner => .capture name colon inner.tree
  | _, type name offset => .type name offset
  | _, wildcard star => .wildcard star
  | _, group opening inner closing => .group opening inner.tree closing

/-! ### One derivation to a tree -/

/-- The tightest stratum of the derivations with this tree. -/
def Tree.stratum : Tree → Stratum
  | .type _ _ => .primary
  | .wildcard _ => .primary
  | .group _ _ _ => .primary
  | .capture _ _ _ => .captured
  | .filter _ _ _ _ => .filtered
  | .negation _ _ => .negated
  | .conjunction _ _ _ => .conjunction
  | .alternative _ _ _ => .alternation
  | .parent _ _ _ => .relation

theorem Derivation.rank_le {s : Stratum} (d : Derivation s) : s.rank ≤ d.tree.stratum.rank := by
  induction d <;> simp_all [Derivation.tree, Tree.stratum, Stratum.rank] <;> omega

/-- A derivation never has a tree that is looser than its stratum. -/
theorem Derivation.tree_ne {s : Stratum} (d : Derivation s) {t : Tree}
    (h : t.stratum.rank < s.rank) : d.tree ≠ t := by
  rintro rfl
  exact absurd d.rank_le (Nat.not_le.2 h)

/-- **A tree has at most one derivation** from a stratum. -/
theorem Derivation.tree_injective {s : Stratum} (d d' : Derivation s) (h : d.tree = d'.tree) :
    d = d' := by
  -- a rule that passes on and one that does not are told apart by the stratum of the tree
  induction d with
  | ofAlternation d ih =>
      cases d' with
      | ofAlternation d' => rw [ih d' h]
      | parent => exact absurd h (d.tree_ne (by simp [tree, Tree.stratum, Stratum.rank]))
  | parent child mark ancestor ihc iha =>
      cases d' with
      | ofAlternation d' =>
          exact absurd h.symm (d'.tree_ne (by simp [tree, Tree.stratum, Stratum.rank]))
      | parent child' mark' ancestor' =>
          simp only [tree, Tree.parent.injEq] at h
          rw [ihc child' h.1, h.2.1, iha ancestor' h.2.2]
  | ofConjunction d ih =>
      cases d' with
      | ofConjunction d' => rw [ih d' h]
      | alternative => exact absurd h (d.tree_ne (by simp [tree, Tree.stratum, Stratum.rank]))
  | alternative left mark right ihl ihr =>
      cases d' with
      | ofConjunction d' =>
          exact absurd h.symm (d'.tree_ne (by simp [tree, Tree.stratum, Stratum.rank]))
      | alternative left' mark' right' =>
          simp only [tree, Tree.alternative.injEq] at h
          rw [ihl left' h.1, h.2.1, ihr right' h.2.2]
  | ofNegated d ih =>
      cases d' with
      | ofNegated d' => rw [ih d' h]
      | conjunction => exact absurd h (d.tree_ne (by simp [tree, Tree.stratum, Stratum.rank]))
  | conjunction left mark right ihl ihr =>
      cases d' with
      | ofNegated d' =>
          exact absurd h.symm (d'.tree_ne (by simp [tree, Tree.stratum, Stratum.rank]))
      | conjunction left' mark' right' =>
          simp only [tree, Tree.conjunction.injEq] at h
          rw [ihl left' h.1, h.2.1, ihr right' h.2.2]
  | ofFiltered d ih =>
      cases d' with
      | ofFiltered d' => rw [ih d' h]
      | negation => exact absurd h (d.tree_ne (by simp [tree, Tree.stratum, Stratum.rank]))
  | negation bang inner ih =>
      cases d' with
      | ofFiltered d' =>
          exact absurd h.symm (d'.tree_ne (by simp [tree, Tree.stratum, Stratum.rank]))
      | negation bang' inner' =>
          simp only [tree, Tree.negation.injEq] at h
          rw [h.1, ih inner' h.2]
  | ofCaptured d ih =>
      cases d' with
      | ofCaptured d' => rw [ih d' h]
      | filter => exact absurd h (d.tree_ne (by simp [tree, Tree.stratum, Stratum.rank]))
  | filter inner opening fields closing ih =>
      cases d' with
      | ofCaptured d' =>
          exact absurd h.symm (d'.tree_ne (by simp [tree, Tree.stratum, Stratum.rank]))
      | filter inner' opening' fields' closing' =>
          simp only [tree, Tree.filter.injEq] at h
          rw [ih inner' h.1, h.2.1, h.2.2.1, h.2.2.2]
  | ofPrimary d ih =>
      cases d' with
      | ofPrimary d' => rw [ih d' h]
      | capture => exact absurd h (d.tree_ne (by simp [tree, Tree.stratum, Stratum.rank]))
  | capture name colon inner ih =>
      cases d' with
      | ofPrimary d' =>
          exact absurd h.symm (d'.tree_ne (by simp [tree, Tree.stratum, Stratum.rank]))
      | capture name' colon' inner' =>
          simp only [tree, Tree.capture.injEq] at h
          rw [h.1, h.2.1, ih inner' h.2.2]
  | type name offset =>
      cases d' with
      | type name' offset' =>
          simp only [tree, Tree.type.injEq] at h
          rw [h.1, h.2]
      | wildcard => simp [tree] at h
      | group => simp [tree] at h
  | wildcard star =>
      cases d' with
      | type => simp [tree] at h
      | wildcard star' =>
          simp only [tree, Tree.wildcard.injEq] at h
          rw [h]
      | group => simp [tree] at h
  | group opening inner closing ih =>
      cases d' with
      | type => simp [tree] at h
      | wildcard => simp [tree] at h
      | group opening' inner' closing' =>
          simp only [tree, Tree.group.injEq] at h
          rw [h.1, ih inner' h.2.1, h.2.2]

/-! ### Trees that fit a stratum -/

/-- The tree has a derivation from the stratum. -/
def Tree.Fits (s : Stratum) (t : Tree) : Prop :=
  ∃ d : Derivation s, d.tree = t

/-- **What fits a stratum fits every looser one.** -/
theorem Tree.Fits.loosen {s s' : Stratum} {t : Tree} (ht : t.Fits s) (h : s'.rank ≤ s.rank) :
    t.Fits s' := by
  have captured : t.Fits .primary → t.Fits .captured := fun ⟨d, hd⟩ => ⟨.ofPrimary d, hd⟩
  have filtered : t.Fits .captured → t.Fits .filtered := fun ⟨d, hd⟩ => ⟨.ofCaptured d, hd⟩
  have negated : t.Fits .filtered → t.Fits .negated := fun ⟨d, hd⟩ => ⟨.ofFiltered d, hd⟩
  have conjunction : t.Fits .negated → t.Fits .conjunction := fun ⟨d, hd⟩ => ⟨.ofNegated d, hd⟩
  have alternation : t.Fits .conjunction → t.Fits .alternation :=
    fun ⟨d, hd⟩ => ⟨.ofConjunction d, hd⟩
  have relation : t.Fits .alternation → t.Fits .relation := fun ⟨d, hd⟩ => ⟨.ofAlternation d, hd⟩
  cases s <;> cases s' <;> simp [Stratum.rank] at h <;> grind

theorem Tree.Fits.parent {child ancestor : Tree} (hc : child.Fits .alternation)
    (ha : ancestor.Fits .relation) (mark : Nat) :
    (Tree.parent child mark ancestor).Fits .relation := by
  obtain ⟨c, rfl⟩ := hc
  obtain ⟨a, rfl⟩ := ha
  exact ⟨.parent c mark a, rfl⟩

theorem Tree.Fits.alternative {left right : Tree} (hl : left.Fits .alternation)
    (hr : right.Fits .conjunction) (mark : Nat) :
    (Tree.alternative left mark right).Fits .alternation := by
  obtain ⟨l, rfl⟩ := hl
  obtain ⟨r, rfl⟩ := hr
  exact ⟨.alternative l mark r, rfl⟩

theorem Tree.Fits.conjunction {left right : Tree} (hl : left.Fits .conjunction)
    (hr : right.Fits .negated) (mark : Nat) :
    (Tree.conjunction left mark right).Fits .conjunction := by
  obtain ⟨l, rfl⟩ := hl
  obtain ⟨r, rfl⟩ := hr
  exact ⟨.conjunction l mark r, rfl⟩

theorem Tree.Fits.negation {inner : Tree} (h : inner.Fits .negated) (bang : Nat) :
    (Tree.negation bang inner).Fits .negated := by
  obtain ⟨d, rfl⟩ := h
  exact ⟨.negation bang d, rfl⟩

theorem Tree.Fits.filter {inner : Tree} (h : inner.Fits .filtered) (opening : Nat)
    (fields : FieldList) (closing : Nat) :
    (Tree.filter inner opening fields closing).Fits .filtered := by
  obtain ⟨d, rfl⟩ := h
  exact ⟨.filter d opening fields closing, rfl⟩

theorem Tree.Fits.capture {inner : Tree} (h : inner.Fits .primary) (name : NameAt) (colon : Nat) :
    (Tree.capture name colon inner).Fits .captured := by
  obtain ⟨d, rfl⟩ := h
  exact ⟨.capture name colon d, rfl⟩

theorem Tree.Fits.group {inner : Tree} (h : inner.Fits .relation) (opening closing : Nat) :
    (Tree.group opening inner closing).Fits .primary := by
  obtain ⟨d, rfl⟩ := h
  exact ⟨.group opening d closing, rfl⟩

theorem Tree.Fits.type (name : String) (offset : Nat) : (Tree.type name offset).Fits .primary :=
  ⟨.type name offset, rfl⟩

theorem Tree.Fits.wildcard (star : Nat) : (Tree.wildcard star).Fits .primary :=
  ⟨.wildcard star, rfl⟩

/-! ### Meaning -/

/-- The expression that a tree means.  Groups vanish, a filter with several fields is a filter for
each of them, the first one innermost, and no name is empty. -/
inductive Tree.Means : Tree → Expr → Prop
  | type {name : String} {offset : Nat} {t : EntryType}
      (h : name.toList.map Char.toLower = t.name.toList) : Means (.type name offset) (.type t)
  | wildcard {star : Nat} : Means (.wildcard star) .any
  | group {opening closing : Nat} {inner : Tree} {e : Expr} (h : Means inner e) :
      Means (.group opening inner closing) e
  | capture {name : NameAt} {colon : Nat} {inner : Tree} {e : Expr} (hn : name.name.value ≠ "")
      (h : Means inner e) : Means (.capture name colon inner) (.capture name.name.value e)
  | filter {inner : Tree} {opening closing : Nat} {fields : FieldList} {e : Expr}
      (hf : ∀ n ∈ fields.names, n.name.value ≠ "") (h : Means inner e) :
      Means (.filter inner opening fields closing)
        (fields.names.foldl (fun e n => .filter e n.name.value) e)
  | negation {bang : Nat} {inner : Tree} {e : Expr} (h : Means inner e) :
      Means (.negation bang inner) (.not e)
  | conjunction {left right : Tree} {mark : Nat} {l r : Expr} (hl : Means left l)
      (hr : Means right r) : Means (.conjunction left mark right) (.and l r)
  | alternative {left right : Tree} {mark : Nat} {l r : Expr} (hl : Means left l)
      (hr : Means right r) : Means (.alternative left mark right) (.or l r)
  | parent {child ancestor : Tree} {mark : Nat} {c a : Expr} (hc : Means child c)
      (ha : Means ancestor a) : Means (.parent child mark ancestor) (.parent c a)

/-- The filter with several names is the filter for all their fields. -/
theorem foldl_filter (ns : List NameAt) (e : Expr) :
    ns.foldl (fun e n => .filter e n.name.value) e =
      Tree.filterAll e (ns.map fun n => n.name.value) :=
  List.foldl_map.symm

/-- The bare names of the tree are made of the characters of bare names. -/
def Tree.BareNamed (t : Tree) : Prop :=
  ∀ (w : String) (o : Nat), ⟨.name (.bare w), o⟩ ∈ t.lexemes → ∀ c ∈ w.toList, isNameChar c = true

theorem Tree.BareNamed.of_subset {t u : Tree} (h : t.BareNamed)
    (hsub : ∀ l ∈ u.lexemes, l ∈ t.lexemes) : u.BareNamed :=
  fun w o hw => h w o (hsub _ hw)

/-- The names of a filter are its fields exactly if none is empty. -/
theorem fieldNames_eq_ok_iff {ns : List NameAt} {fs : List String} :
    Tree.fieldNames ns = .ok fs ↔
      (∀ n ∈ ns, n.name.value ≠ "") ∧ fs = ns.map fun n => n.name.value := by
  induction ns generalizing fs with
  | nil => simp only [Tree.fieldNames, Except.ok.injEq, List.not_mem_nil, false_implies,
      implies_true, true_and, List.map_nil, eq_comm]
  | cons n ns ih =>
      by_cases hn : n.name.value = ""
      · simp [Tree.fieldNames, hn]
      · simp only [Tree.fieldNames, hn, if_false, map_eq_ok_iff, ih, List.mem_cons,
          forall_eq_or_imp, ne_eq, not_false_eq_true, true_and, List.map_cons]
        constructor
        · rintro ⟨gs, ⟨hne, rfl⟩, rfl⟩
          exact ⟨hne, rfl⟩
        · rintro ⟨hne, rfl⟩
          exact ⟨_, ⟨hne, rfl⟩, rfl⟩

/-- The expression that is built from a tree is the one that the tree means. -/
theorem Tree.means_of_toExpr {t : Tree} {e : Expr} (h : t.toExpr = .ok e) (hbare : t.BareNamed) :
    t.Means e := by
  induction t generalizing e with
  | type name offset =>
      simp only [toExpr] at h
      split at h
      · rename_i ty hty
        cases h
        exact .type ((EntryType.ofText_eq_ok_iff (hbare name offset (by simp [lexemes]))).1 hty)
      · cases h
  | wildcard star =>
      cases h
      exact .wildcard
  | group opening inner closing ih =>
      exact .group (ih h (hbare.of_subset fun l hl => by simp [lexemes, hl]))
  | capture name colon inner ih =>
      rw [toExpr, bind_eq_ok_iff] at h
      obtain ⟨d, hd, h⟩ := h
      split at h
      · cases h
      · rename_i hn
        cases h
        exact .capture hn (ih hd (hbare.of_subset fun l hl => by simp [lexemes, hl]))
  | filter inner opening fields closing ih =>
      rw [toExpr, bind_eq_ok_iff] at h
      obtain ⟨d, hd, h⟩ := h
      rw [bind_eq_ok_iff] at h
      obtain ⟨fs, hfs, h⟩ := h
      cases h
      obtain ⟨hne, rfl⟩ := fieldNames_eq_ok_iff.1 hfs
      rw [← foldl_filter]
      exact .filter hne (ih hd (hbare.of_subset fun l hl => by simp [lexemes, hl]))
  | negation bang inner ih =>
      rw [toExpr, bind_eq_ok_iff] at h
      obtain ⟨d, hd, h⟩ := h
      cases h
      exact .negation (ih hd (hbare.of_subset fun l hl => by simp [lexemes, hl]))
  | conjunction left mark right ihl ihr =>
      rw [toExpr, bind_bind_eq_ok_iff] at h
      obtain ⟨l, r, hl, hr, rfl⟩ := h
      exact .conjunction (ihl hl (hbare.of_subset fun l hl => by simp [lexemes, hl]))
        (ihr hr (hbare.of_subset fun l hl => by simp [lexemes, hl]))
  | alternative left mark right ihl ihr =>
      rw [toExpr, bind_bind_eq_ok_iff] at h
      obtain ⟨l, r, hl, hr, rfl⟩ := h
      exact .alternative (ihl hl (hbare.of_subset fun l hl => by simp [lexemes, hl]))
        (ihr hr (hbare.of_subset fun l hl => by simp [lexemes, hl]))
  | parent child mark ancestor ihc iha =>
      rw [toExpr, bind_bind_eq_ok_iff] at h
      obtain ⟨c, a, hc, ha, rfl⟩ := h
      exact .parent (ihc hc (hbare.of_subset fun l hl => by simp [lexemes, hl]))
        (iha ha (hbare.of_subset fun l hl => by simp [lexemes, hl]))

/-- The expression that a tree means is the one that is built from it. -/
theorem Tree.Means.toExpr_eq {t : Tree} {e : Expr} (h : t.Means e) (hbare : t.BareNamed) :
    t.toExpr = .ok e := by
  induction h with
  | @type name offset t h =>
      have := (EntryType.ofText_eq_ok_iff (hbare name offset (by simp [lexemes]))).2 h
      simp [toExpr, this]
  | wildcard => rfl
  | group _ ih => exact ih (hbare.of_subset fun l hl => by simp [lexemes, hl])
  | capture hn _ ih =>
      rw [toExpr, bind_eq_ok_iff]
      exact ⟨_, ih (hbare.of_subset fun l hl => by simp [lexemes, hl]), if_neg hn⟩
  | filter hf _ ih =>
      rw [toExpr, bind_eq_ok_iff]
      refine ⟨_, ih (hbare.of_subset fun l hl => by simp [lexemes, hl]), ?_⟩
      rw [bind_eq_ok_iff]
      refine ⟨_, fieldNames_eq_ok_iff.2 ⟨hf, rfl⟩, ?_⟩
      rw [foldl_filter]
      rfl
  | negation _ ih =>
      rw [toExpr, bind_eq_ok_iff]
      exact ⟨_, ih (hbare.of_subset fun l hl => by simp [lexemes, hl]), rfl⟩
  | conjunction _ _ ihl ihr =>
      rw [toExpr, bind_bind_eq_ok_iff]
      exact ⟨_, _, ihl (hbare.of_subset fun l hl => by simp [lexemes, hl]),
        ihr (hbare.of_subset fun l hl => by simp [lexemes, hl]), rfl⟩
  | alternative _ _ ihl ihr =>
      rw [toExpr, bind_bind_eq_ok_iff]
      exact ⟨_, _, ihl (hbare.of_subset fun l hl => by simp [lexemes, hl]),
        ihr (hbare.of_subset fun l hl => by simp [lexemes, hl]), rfl⟩
  | parent _ _ ihc iha =>
      rw [toExpr, bind_bind_eq_ok_iff]
      exact ⟨_, _, ihc (hbare.of_subset fun l hl => by simp [lexemes, hl]),
        iha (hbare.of_subset fun l hl => by simp [lexemes, hl]), rfl⟩

/-! ### Captures -/

namespace Expr

@[simp] theorem captures_type (t : EntryType) : (type t).captures = [] := rfl

@[simp] theorem captures_any : any.captures = [] := rfl

@[simp] theorem captures_not (e : Expr) : (not e).captures = e.captures := rfl

@[simp] theorem captures_and (l r : Expr) : (and l r).captures = l.captures ++ r.captures :=
  List.filterMap_append

@[simp] theorem captures_or (l r : Expr) : (or l r).captures = l.captures ++ r.captures :=
  List.filterMap_append

@[simp] theorem captures_parent (c a : Expr) :
    (parent c a).captures = c.captures ++ a.captures :=
  List.filterMap_append

@[simp] theorem captures_filter (e : Expr) (f : String) : (filter e f).captures = e.captures := rfl

@[simp] theorem captures_capture (n : String) (e : Expr) :
    (capture n e).captures = n :: e.captures := rfl

@[simp] theorem captures_filterAll (e : Expr) (fields : List String) :
    (Tree.filterAll e fields).captures = e.captures := by
  induction fields generalizing e with
  | nil => rfl
  | cons f fields ih => exact (ih (filter e f)).trans (captures_filter e f)

end Expr

/-- **A tree and its expression have the same captures**, in the same order. -/
theorem Tree.Means.captures_eq {t : Tree} {e : Expr} (h : t.Means e) :
    e.captures = t.captures.map Prod.fst := by
  induction h with
  | type => rfl
  | wildcard => rfl
  | group _ ih => exact ih
  | capture _ _ ih => rw [Expr.captures_capture, ih]; rfl
  | filter _ _ ih => rw [foldl_filter, Expr.captures_filterAll, ih]; rfl
  | negation _ ih => rw [Expr.captures_not, ih]; rfl
  | conjunction _ _ ihl ihr => rw [Expr.captures_and, ihl, ihr, ← List.map_append]; rfl
  | alternative _ _ ihl ihr => rw [Expr.captures_or, ihl, ihr, ← List.map_append]; rfl
  | parent _ _ ihc iha => rw [Expr.captures_parent, ihc, iha, ← List.map_append]; rfl

end Bibliograph.Selector
