import Bibliograph.Proofs.Selector.Captures
import Bibliograph.Proofs.Selector.Printing
import Mathlib.Data.List.Flatten
import Mathlib.Order.Bounds.Basic

/-!
# Texts that are nested too deeply

The nodes of a syntax tree at one depth stand side by side in the text: their lexemes are some of
the lexemes of the tree, in the same order, and no lexeme belongs to two of them.  So the last one
that is met from left to right is the one that starts furthest to the right, which is the one that a
search from right to left meets first.

Main definitions:

* `Selector.Tree.HasAt`: a tree has a node at a depth, where the root is at depth one.

Main results:

* `Selector.Tree.hasAt_succ_iff`: a generation has the nodes at one depth;
* `Selector.Tree.exists_hasAt_iff`: the height is the greatest depth of a node;
* `Selector.Tree.pairwise_start_generation`: **nodes at one depth start in the order of the text**;
* `Selector.tooDeep_iff_height`: **a text is refused for its depth exactly if its tree is too
  high**, whatever is wrong with its names, and at which node.
-/

set_option autoImplicit false

namespace Bibliograph.Selector

/-! ### Nodes at a depth -/

/-- The tree has the node at the depth; the root is at depth one. -/
inductive Tree.HasAt (t : Tree) : Nat → Node → Prop
  | root : t.HasAt 1 (.tree t)
  | part {depth : Nat} {v w : Node} (h : t.HasAt depth v) (hw : w ∈ v.parts) :
      t.HasAt (depth + 1) w

/-- The next generation has the parts of the nodes of a generation. -/
theorem Node.mem_generation_succ {n : Nat} {v w : Node} :
    w ∈ v.generation (n + 1) ↔ ∃ u ∈ v.generation n, w ∈ u.parts := by
  induction n generalizing v with
  | zero => simp [generation]
  | succ n ih =>
      rw [generation, List.mem_flatMap]
      constructor
      · rintro ⟨p, hp, hw⟩
        obtain ⟨u, hu, hw⟩ := ih.1 hw
        exact ⟨u, List.mem_flatMap.2 ⟨p, hp, hu⟩, hw⟩
      · rintro ⟨u, hu, hw⟩
        obtain ⟨p, hp, hu⟩ := List.mem_flatMap.1 hu
        exact ⟨p, hp, ih.2 ⟨u, hu, hw⟩⟩

namespace Tree

theorem HasAt.depth_pos {t : Tree} {depth : Nat} {v : Node} (h : t.HasAt depth v) :
    0 < depth := by
  cases h with
  | root => exact Nat.one_pos
  | part _ _ => exact Nat.succ_pos _

/-- **A generation has the nodes at one depth.** -/
theorem hasAt_succ_iff {t : Tree} {n : Nat} {v : Node} :
    t.HasAt (n + 1) v ↔ v ∈ (Node.tree t).generation n := by
  induction n generalizing v with
  | zero =>
      rw [Node.generation, List.mem_singleton]
      constructor
      · intro h
        cases h with
        | root => rfl
        | part h _ => exact absurd h.depth_pos (Nat.lt_irrefl 0)
      · rintro rfl
        exact .root
  | succ n ih =>
      rw [Node.mem_generation_succ]
      constructor
      · intro h
        cases h with
        | part h hw => exact ⟨_, ih.1 h, hw⟩
      · rintro ⟨u, hu, hw⟩
        exact .part (ih.2 hu) hw

/-- **The height is the greatest depth of a node.** -/
theorem exists_hasAt_iff (t : Tree) (n : Nat) : (∃ v, t.HasAt (n + 1) v) ↔ n < t.height := by
  have hheight : (Node.tree t).generation n ≠ [] ↔ n < t.height :=
    (Node.tree t).generation_ne_nil_iff n
  simp only [hasAt_succ_iff, ← hheight]
  exact ⟨fun ⟨_, hv⟩ => List.ne_nil_of_mem hv, List.exists_mem_of_ne_nil _⟩

end Tree

/-! ### The order of the text -/

/-- The lexemes of the nodes of a generation are lexemes of the node, in the same order. -/
theorem Node.lexemes_generation (n : Nat) (v : Node) :
    ((v.generation n).flatMap lexemes).Sublist v.lexemes := by
  induction n generalizing v with
  | zero => simp [generation]
  | succ n ih =>
      rw [generation, List.flatMap_assoc]
      exact (List.Sublist.flatMap_right v.parts fun w _ => ih w).trans v.lexemes_parts.1

/-- Nodes start at lexemes of theirs. -/
theorem Node.starts_sublist (vs : List Node) :
    (vs.map start).Sublist ((vs.flatMap lexemes).map Lexeme.offset) := by
  induction vs with
  | nil => exact .slnil
  | cons v vs ih =>
      have hhead := v.head?_lexemes
      cases hv : v.lexemes with
      | nil => simp [hv] at hhead
      | cons l ls =>
          have hstart : l.offset = v.start := by simpa [hv] using hhead
          rw [List.map_cons, List.flatMap_cons, hv, List.cons_append, List.map_cons, hstart,
            List.map_append]
          exact (ih.trans (List.sublist_append_right _ _)).cons_cons _

/-- **Nodes at one depth start in the order of the text.** -/
theorem Tree.pairwise_start_generation {t : Tree} {o : Nat} (h : Increasing o t.lexemes) (n : Nat) :
    (((Node.tree t).generation n).map Node.start).Pairwise (· < ·) := by
  have hoffsets : (t.lexemes.map Lexeme.offset).Pairwise (· < ·) := List.pairwise_map.2 h.pairwise
  refine hoffsets.sublist ((Node.starts_sublist _).trans ?_)
  exact ((Node.tree t).lexemes_generation n).map Lexeme.offset

/-- The last one of a list that goes upwards is the greatest one. -/
theorem getLast?_eq_some_iff_isGreatest {ks : List Nat} (h : ks.Pairwise (· < ·)) {o : Nat} :
    ks.getLast? = some o ↔ IsGreatest {k | k ∈ ks} o := by
  have hlast : ∀ {k : Nat}, ks.getLast? = some k → IsGreatest {k | k ∈ ks} k := by
    intro k hk
    obtain ⟨front, rfl⟩ := List.getLast?_eq_some_iff.1 hk
    refine ⟨by simp, fun j hj => ?_⟩
    rcases List.mem_append.1 hj with hj | hj
    · exact Nat.le_of_lt ((List.pairwise_append.1 h).2.2 j hj k (by simp))
    · exact Nat.le_of_eq (List.mem_singleton.1 hj)
  refine ⟨hlast, fun ho => ?_⟩
  cases hk : ks.getLast? with
  | none =>
      rw [List.getLast?_eq_none_iff.1 hk] at ho
      exact absurd ho.1 List.not_mem_nil
  | some k => rw [(hlast hk).unique ho]

/-- The search finds the node below the limit that starts furthest to the right. -/
theorem Tree.firstBelow?_eq_some_iff {t : Tree} {n : Nat} (h : Increasing n t.lexemes)
    (limit o : Nat) :
    t.firstBelow? limit = some o ↔
      IsGreatest {k | ∃ v, t.HasAt (limit + 1) v ∧ v.start = k} o := by
  rw [firstBelow?_eq, ← List.getLast?_map,
    getLast?_eq_some_iff_isGreatest (pairwise_start_generation h limit)]
  simp only [List.mem_map, hasAt_succ_iff]

/-! ### Refused texts -/

section

variable {source : String} {t : Tree} (ht : t.Fits .relation)
  (hs : Spells 0 source.toList t.lexemes)
include ht hs

/-- The depth is reported where the search finds a node. -/
theorem parseExpr_tooDeep_iff {e : SelectorError} :
    parseExpr source = .error e ∧ e.fault = .tooDeep ↔
      ∃ o, t.firstBelow? maxDepth = some o ∧ e = ⟨.tooDeep, o, source⟩ := by
  have htree := parseTree_of_spells ht hs
  cases ho : t.firstBelow? maxDepth with
  | some o =>
      rw [ho] at htree
      rw [parseExpr_of_parseTree_error htree]
      constructor
      · rintro ⟨he, -⟩
        exact ⟨o, rfl, (Except.error.inj he).symm⟩
      · rintro ⟨_, ho, rfl⟩
        cases ho
        exact ⟨rfl, rfl⟩
  | none =>
      rw [ho] at htree
      constructor
      · rintro ⟨he, hfault⟩
        have hname := isOfName_of_parseTree_eq_ok htree he
        rw [hfault] at hname
        exact hname.elim
      · rintro ⟨_, ho, -⟩
        cases ho

/-- **A text is refused for its depth exactly if its tree is too high**, whatever is wrong with the
names in it.  Of the nodes right below the limit, the one that starts furthest to the right is
reported. -/
theorem tooDeep_iff_height :
    ((∃ e, parseExpr source = .error e ∧ e.fault = .tooDeep) ↔ maxDepth < t.height) ∧
    ∀ o, parseExpr source = .error ⟨.tooDeep, o, source⟩ ↔
      IsGreatest {k | ∃ v, t.HasAt (maxDepth + 1) v ∧ v.start = k} o := by
  constructor
  · simp only [parseExpr_tooDeep_iff ht hs]
    rw [← t.firstBelow?_isSome_iff, Option.isSome_iff_exists]
    constructor
    · rintro ⟨_, o, ho, -⟩
      exact ⟨o, ho⟩
    · rintro ⟨o, ho⟩
      exact ⟨_, o, ho, rfl⟩
  · intro o
    have hreport := parseExpr_tooDeep_iff ht hs (e := ⟨.tooDeep, o, source⟩)
    rw [← Tree.firstBelow?_eq_some_iff hs.increasing]
    simpa using hreport

end

/-! ### Groups around a text -/

theorem Node.generation_group (opening : Nat) (t : Tree) (closing n : Nat) :
    (Node.tree (.group opening t closing)).generation (n + 1) = (Node.tree t).generation n := by
  rw [generation, parts, Tree.parts, List.flatMap_singleton]

/-- Parentheses around a text move the nodes of its tree down. -/
theorem exists_grouped {cs : List Char} {t : Tree} {n : Nat} (k : Nat) (ht : t.Fits .relation)
    (hw : Writes (n + k) cs t.lexemes) :
    ∃ u : Tree, u.Fits .relation ∧
      Writes n (List.replicate k '(' ++ cs ++ List.replicate k ')') u.lexemes ∧
      ∀ j, (Node.tree u).generation (j + k) = (Node.tree t).generation j := by
  induction k generalizing cs t with
  | zero => exact ⟨t, ht, by simpa using hw, fun _ => rfl⟩
  | succ k ih =>
      let closing := n + k + 1 + cs.length
      have hgroup : (Tree.group (n + k) t closing).Fits .relation :=
        (ht.group (n + k) closing).loosen (by decide)
      obtain ⟨u, hu, hwrites, hgeneration⟩ := ih hgroup hw.parenthesized
      refine ⟨u, hu, ?_, fun j => ?_⟩
      · rw [List.replicate_succ', List.replicate_succ]
        simpa using hwrites
      · rw [← Node.generation_group (n + k) t closing j, ← hgeneration]
        congr 1
        omega

/-- In 199 pairs of parentheses the type and the name list of a filter are the nodes right below the
limit, and the list is the rightmost one.  That the type is unknown and the name empty is not
reported. -/
theorem tooDeep_of_grouped_filter :
    ∃ source, source.toList = List.replicate 199 '(' ++ "nosuch[\"\"]".toList ++
        List.replicate 199 ')' ∧
      parseExpr source = .error ⟨.tooDeep, 206, source⟩ := by
  let fields : FieldList := ⟨⟨.quoted "", 206⟩, []⟩
  let t : Tree := .filter (.type "nosuch" 199) 205 fields 208
  have hfits : t.Fits .filtered :=
    ((Tree.Fits.type "nosuch" 199).loosen (by decide)).filter 205 fields 208
  have hwrites : Writes (0 + 199) "nosuch[\"\"]".toList t.lexemes := by
    have htext : "nosuch[\"\"]".toList =
        ['n', 'o', 's', 'u', 'c', 'h'] ++ '[' :: '"' :: ([] ++ ['"', ']']) := by
      decide
    have hrun : ['o', 's', 'u', 'c', 'h'].all isNameChar = true := by decide
    rw [htext]
    exact (Writes.word (by decide) (List.all_eq_true.1 hrun)).append (by decide) (.bracketed .nil)
  obtain ⟨u, hu, hwrites, hgeneration⟩ := exists_grouped 199 (hfits.loosen (by decide)) hwrites
  have hnodes : ∀ v, u.HasAt (maxDepth + 1) v ↔ v ∈ [.tree (.type "nosuch" 199), .fields fields] :=
    fun v => Tree.hasAt_succ_iff.trans (by rw [show maxDepth = 1 + 199 from rfl, hgeneration]; rfl)
  refine ⟨String.ofList _, String.toList_ofList, ?_⟩
  have hspells := hwrites.spells
  rw [← String.toList_ofList (l := _ ++ _)] at hspells
  refine ((tooDeep_iff_height hu hspells).2 206).2 ⟨⟨.fields fields, (hnodes _).2 (by simp), rfl⟩, ?_⟩
  rintro _ ⟨v, hv, rfl⟩
  rcases List.mem_pair.1 ((hnodes v).1 hv) with rfl | rfl
  · decide
  · decide

end Bibliograph.Selector
