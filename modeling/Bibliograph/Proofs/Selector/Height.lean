import Bibliograph.Proofs.Selector.Printing
import Mathlib.Order.Bounds.Defs

/-!
# How high an expression gets

The limit on the height is one on syntax trees.  Between the tree of a text and its expression, and
between the expression and the tree of its own text, heights change in three ways: a group adds a
level to the tree only, every name behind a comma adds a level to the expression only, and an
operator is in parentheses in the text of the expression, which adds a level there.  So an
expression may be as much higher than its tree as the text has commas, and the text of an
expression may have a tree that is about twice as high.  Both bounds are reached.

Main definitions:

* `Selector.commas`, `Selector.Tree.commas`: the number of commas among lexemes and in a tree;
* `Selector.negatedFields`: texts whose expressions get as high as they can;
* `Selector.alternativeStars`: texts whose expressions have texts that get as high as they can.

Main results:

* `Selector.Tree.Means.height_le`: an expression is at most as high as its tree, but for the commas;
* `Selector.Tree.Means.printedHeight_lt`: its text has a tree of at most twice the height, but for
  the commas;
* `Selector.isGreatest_height_of_commas`: **how high the expressions of accepted texts can get**;
* `Selector.parseExpr_toSource_depth`: **when the text of an accepted expression is too deep**.
-/

set_option autoImplicit false

namespace Bibliograph.Selector

/-! ### Commas -/

/-- The number of commas. -/
def commas (ls : List Lexeme) : Nat :=
  ls.countP fun l => l.token = .comma

@[simp] theorem commas_nil : commas [] = 0 := rfl

@[simp] theorem commas_append (ls ms : List Lexeme) :
    commas (ls ++ ms) = commas ls + commas ms :=
  List.countP_append

@[simp] theorem commas_comma (o : Nat) (ls : List Lexeme) :
    commas (⟨.comma, o⟩ :: ls) = commas ls + 1 := by
  simp [commas]

@[simp] theorem commas_of_ne {l : Lexeme} (h : l.token ≠ .comma) (ls : List Lexeme) :
    commas (l :: ls) = commas ls := by
  simp [commas, h]

@[simp] theorem commas_name (n : NameAt) (ls : List Lexeme) :
    commas (n.lexeme :: ls) = commas ls :=
  commas_of_ne (by simp [NameAt.lexeme]) ls

/-- Every name but the first one has its comma. -/
@[simp] theorem commas_fields (f : FieldList) : commas f.lexemes = f.more.length := by
  obtain ⟨first, more⟩ := f
  rw [FieldList.lexemes, commas_name]
  induction more with
  | nil => rfl
  | cons m ms ih => simp [ih]

/-- The number of commas in a tree. -/
def Tree.commas : Tree → Nat
  | type _ _ => 0
  | wildcard _ => 0
  | group _ inner _ => inner.commas
  | capture _ _ inner => inner.commas
  | filter inner _ fields _ => inner.commas + fields.more.length
  | negation _ inner => inner.commas
  | conjunction left _ right => left.commas + right.commas
  | alternative left _ right => left.commas + right.commas
  | parent child _ ancestor => child.commas + ancestor.commas

theorem commas_lexemes (t : Tree) : Selector.commas t.lexemes = t.commas := by
  induction t with
  | type => rfl
  | wildcard => rfl
  | group _ _ _ ih => simp [Tree.lexemes, Tree.commas, ih]
  | capture _ _ _ ih => simp [Tree.lexemes, Tree.commas, ih]
  | filter _ _ _ _ ih => simp [Tree.lexemes, Tree.commas, ih]
  | negation _ _ ih => simp [Tree.lexemes, Tree.commas, ih]
  | conjunction _ _ _ ihl ihr => simp [Tree.lexemes, Tree.commas, ihl, ihr]
  | alternative _ _ _ ihl ihr => simp [Tree.lexemes, Tree.commas, ihl, ihr]
  | parent _ _ _ ihc iha => simp [Tree.lexemes, Tree.commas, ihc, iha]

/-! ### Heights -/

theorem FieldList.length_names (f : FieldList) : f.names.length = f.more.length + 1 := by
  simp [FieldList.names]

namespace Expr

theorem height_filterAll (e : Expr) (fields : List String) :
    (Tree.filterAll e fields).height = e.height + fields.length := by
  induction fields generalizing e with
  | nil => rfl
  | cons f fields ih =>
      have hfirst : (Tree.filterAll e (f :: fields)).height = e.height + 1 + fields.length :=
        ih (filter e f)
      rw [hfirst, List.length_cons]
      omega

/-- Only the innermost of several filters may need parentheses. -/
theorem printedHeight_filterAll_le (e : Expr) (fields : List String) :
    (Tree.filterAll e fields).printedHeight ≤
      e.printedHeight + fields.length + if e.isNot then 1 else 0 := by
  induction fields generalizing e with
  | nil => exact Nat.le_add_right _ _
  | cons f fields ih =>
      have hfirst : (Tree.filterAll e (f :: fields)).printedHeight ≤
          (filter e f).printedHeight + fields.length + 0 := ih (filter e f)
      rw [printedHeight] at hfirst
      rw [List.length_cons]
      by_cases hnot : e.isNot = true
      · rw [if_pos hnot] at hfirst ⊢
        omega
      · rw [if_neg hnot] at hfirst ⊢
        omega

end Expr

/-- **An expression is at most as high as its tree, but for the commas.** -/
theorem Tree.Means.height_le {t : Tree} {e : Expr} (h : t.Means e) :
    e.height ≤ t.height + t.commas := by
  induction h with
  | type => exact Nat.le_refl _
  | wildcard => exact Nat.le_refl _
  | group _ ih =>
      simp only [Tree.height, Tree.commas]
      omega
  | capture _ _ ih =>
      simp only [Tree.height, Tree.commas, Expr.height]
      omega
  | @filter inner opening closing fields e _ _ ih =>
      have hnames := fields.length_names
      rw [foldl_filter, Expr.height_filterAll, List.length_map]
      simp only [Tree.height, Tree.commas]
      omega
  | negation _ ih =>
      simp only [Tree.height, Tree.commas, Expr.height]
      omega
  | conjunction _ _ ihl ihr =>
      simp only [Tree.height, Tree.commas, Expr.height]
      omega
  | alternative _ _ ihl ihr =>
      simp only [Tree.height, Tree.commas, Expr.height]
      omega
  | parent _ _ ihc iha =>
      simp only [Tree.height, Tree.commas, Expr.height]
      omega

/-- **The text of an expression has a tree of at most twice the height, but for the commas.** -/
theorem Tree.Means.printedHeight_lt {t : Tree} {e : Expr} (h : t.Means e) :
    e.printedHeight < 2 * t.height + t.commas := by
  induction h with
  | type => exact Nat.lt_succ_self 1
  | wildcard => exact Nat.lt_succ_self 1
  | group _ ih =>
      simp only [Tree.height, Tree.commas]
      omega
  | capture _ _ ih =>
      simp only [Tree.height, Tree.commas, Expr.printedHeight]
      omega
  | @filter inner opening closing fields e _ _ ih =>
      have hnames := fields.length_names
      have hfilter := Expr.printedHeight_filterAll_le e (fields.names.map fun n => n.name.value)
      rw [← foldl_filter, List.length_map] at hfilter
      simp only [Tree.height, Tree.commas]
      split at hfilter <;> omega
  | negation _ ih =>
      simp only [Tree.height, Tree.commas, Expr.printedHeight]
      omega
  | conjunction _ _ ihl ihr =>
      simp only [Tree.height, Tree.commas, Expr.printedHeight]
      omega
  | alternative _ _ ihl ihr =>
      simp only [Tree.height, Tree.commas, Expr.printedHeight]
      omega
  | parent _ _ ihc iha =>
      simp only [Tree.height, Tree.commas, Expr.printedHeight]
      omega

/-! ### Texts that reach the bounds -/

/-- The names of a filter behind the first one, each with its comma. -/
def furtherNames : Nat → List Char
  | 0 => []
  | k + 1 => furtherNames k ++ [',', 'a']

/-- Negations of a star with `k + 1` fields. -/
def negatedFields (k : Nat) : Nat → List Char
  | 0 => '*' :: '[' :: 'a' :: (furtherNames k ++ [']'])
  | j + 1 => '!' :: negatedFields k j

/-- The expression of such a text. -/
def negatedFieldsExpr (k : Nat) : Nat → Expr
  | 0 => Tree.filterAll .any (List.replicate (k + 1) "a")
  | j + 1 => .not (negatedFieldsExpr k j)

/-- Alternatives of stars. -/
def alternativeStars : Nat → List Char
  | 0 => ['*']
  | k + 1 => alternativeStars k ++ ['|', '*']

/-- The expression of such a text. -/
def alternativeStarsExpr : Nat → Expr
  | 0 => .any
  | k + 1 => .or (alternativeStarsExpr k) .any

theorem captures_negatedFieldsExpr (k j : Nat) : (negatedFieldsExpr k j).captures = [] := by
  induction j with
  | zero => rw [negatedFieldsExpr, Expr.captures_filterAll, Expr.captures_any]
  | succ j ih => rw [negatedFieldsExpr, Expr.captures_not, ih]

theorem height_negatedFieldsExpr (k j : Nat) : (negatedFieldsExpr k j).height = j + k + 2 := by
  induction j with
  | zero =>
      rw [negatedFieldsExpr, Expr.height_filterAll, List.length_replicate, Expr.height]
      omega
  | succ j ih =>
      rw [negatedFieldsExpr, Expr.height, ih]
      omega

theorem captures_alternativeStarsExpr (k : Nat) : (alternativeStarsExpr k).captures = [] := by
  induction k with
  | zero => rfl
  | succ k ih => rw [alternativeStarsExpr, Expr.captures_or, ih, Expr.captures_any, List.append_nil]

theorem nodup_captures_alternativeStarsExpr (k : Nat) :
    (alternativeStarsExpr k).captures.Nodup := by
  rw [captures_alternativeStarsExpr]
  exact List.nodup_nil

theorem verbatim_alternativeStarsExpr (k : Nat) : (alternativeStarsExpr k).IsVerbatim := by
  induction k with
  | zero => trivial
  | succ k ih => exact ⟨ih, trivial⟩

theorem printedHeight_alternativeStarsExpr (k : Nat) :
    (alternativeStarsExpr k).printedHeight = 2 * k + 1 := by
  induction k with
  | zero => rfl
  | succ k ih =>
      rw [alternativeStarsExpr, Expr.printedHeight, ih, Expr.printedHeight]
      omega

/-- The names behind an opening bracket are written for a list of fields. -/
theorem exists_fields (k n : Nat) :
    ∃ f : FieldList, f.more.length = k ∧
      f.names.map (fun m => m.name.value) = List.replicate (k + 1) "a" ∧
      Writes n ('a' :: furtherNames k) f.lexemes := by
  have hword : ∀ n : Nat, Writes n ['a'] [⟨.name (.bare "a"), n⟩] := by
    intro n
    exact Writes.word (by decide) (by simp)
  induction k with
  | zero => exact ⟨⟨⟨.bare "a", n⟩, []⟩, rfl, rfl, hword n⟩
  | succ k ih =>
      obtain ⟨f, hlength, hnames, hw⟩ := ih
      let comma := n + ('a' :: furtherNames k).length
      have hsnoc : (f.snoc comma ⟨.bare "a", comma + 1⟩).names =
          f.names ++ [⟨.bare "a", comma + 1⟩] := by
        simp [FieldList.names, FieldList.snoc]
      refine ⟨f.snoc comma ⟨.bare "a", comma + 1⟩, ?_, ?_, ?_⟩
      · simp [FieldList.snoc, hlength]
      · rw [hsnoc, List.map_append, hnames]
        exact List.replicate_succ'.symm
      · rw [FieldList.lexemes_snoc]
        exact hw.append (by decide) (.mark (by decide) (hword _))

theorem exists_tree_negatedFields (k j n : Nat) :
    ∃ t : Tree, t.Fits .negated ∧ t.Means (negatedFieldsExpr k j) ∧ t.height = j + 2 ∧
      t.commas = k ∧ Writes n (negatedFields k j) t.lexemes := by
  induction j generalizing n with
  | zero =>
      obtain ⟨f, hlength, hnames, hw⟩ := exists_fields k (n + 1 + 1)
      let closing := n + 1 + 1 + ('a' :: furtherNames k).length
      have hfits : (Tree.filter (.wildcard n) (n + 1) f closing).Fits .filtered :=
        ((Tree.Fits.wildcard n).loosen (by decide)).filter (n + 1) f closing
      refine ⟨.filter (.wildcard n) (n + 1) f closing, hfits.loosen (by decide), ?_, rfl, ?_, ?_⟩
      · have hne : ∀ m ∈ f.names, m.name.value ≠ "" := by
          intro m hm
          have hmem : m.name.value ∈ f.names.map fun m => m.name.value := List.mem_map_of_mem hm
          rw [hnames] at hmem
          rw [List.eq_of_mem_replicate hmem]
          decide
        rw [negatedFieldsExpr, ← hnames, ← foldl_filter]
        exact .filter hne .wildcard
      · rw [Tree.commas, Tree.commas, hlength, Nat.zero_add]
      · exact .mark (by decide) (.mark (by decide)
          (hw.append (by decide) (.mark (by decide) (.nil _))))
  | succ j ih =>
      obtain ⟨t, hfits, hmeans, hheight, hcommas, hw⟩ := ih (n + 1)
      refine ⟨.negation n t, hfits.negation n, .negation hmeans, ?_, hcommas, ?_⟩
      · rw [Tree.height, hheight]
      · exact .mark (by decide) hw

theorem exists_tree_alternativeStars (k n : Nat) :
    ∃ t : Tree, t.Fits .alternation ∧ t.Means (alternativeStarsExpr k) ∧ t.height = k + 1 ∧
      Writes n (alternativeStars k) t.lexemes := by
  induction k with
  | zero =>
      exact ⟨.wildcard n, (Tree.Fits.wildcard n).loosen (by decide), .wildcard, rfl,
        .mark (by decide) (.nil _)⟩
  | succ k ih =>
      obtain ⟨t, hfits, hmeans, hheight, hw⟩ := ih
      let bar := n + (alternativeStars k).length
      have hstar : (Tree.wildcard (bar + 1)).Fits .conjunction :=
        (Tree.Fits.wildcard (bar + 1)).loosen (by decide)
      refine ⟨.alternative t bar (.wildcard (bar + 1)), hfits.alternative hstar bar,
        .alternative hmeans .wildcard, ?_, ?_⟩
      · rw [Tree.height, hheight, Tree.height, Nat.max_eq_left (Nat.le_add_left 1 k)]
      · exact hw.append (by decide) (.mark (by decide) (.mark (by decide) (.nil _)))

/-! ### Accepted texts -/

/-- An accepted text bounds the height of its expression. -/
theorem height_le_of_parseExpr {source : String} {e : Expr} (h : parseExpr source = .ok e) :
    e.height ≤ maxDepth + commas (lex source).lexemes := by
  obtain ⟨t, ht, hmeans, -⟩ := exists_tree_of_parseExpr h
  obtain ⟨-, hs, hd⟩ := parseTree_eq_ok_iff.1 ht
  have hlex : lex source = ⟨t.lexemes, none⟩ := spells_iff.1 hs
  rw [hlex, commas_lexemes]
  exact Nat.le_trans hmeans.height_le (Nat.add_le_add_right hd _)

/-- Negations of a star with several fields, which are accepted however many the fields are. -/
theorem parseExpr_negatedFields (k : Nat) {j : Nat} (hj : j + 2 ≤ maxDepth) :
    parseExpr (String.ofList (negatedFields k j)) = .ok (negatedFieldsExpr k j) ∧
      commas (lex (String.ofList (negatedFields k j))).lexemes = k := by
  obtain ⟨t, hfits, hmeans, hheight, hcommas, hw⟩ := exists_tree_negatedFields k j 0
  have hn : (negatedFieldsExpr k j).captures.Nodup := by
    rw [captures_negatedFieldsExpr]
    exact List.nodup_nil
  have hdepth : t.height ≤ maxDepth := by
    rw [hheight]
    exact hj
  have hparse := parseExpr_of_writes (hfits.loosen (by decide)) hw hdepth hmeans hn
  have hlex : lex (String.ofList (negatedFields k j)) = ⟨t.lexemes, none⟩ := by
    rw [lex, String.toList_ofList]
    exact spells_iff.1 hw.spells
  refine ⟨hparse, ?_⟩
  rw [hlex, commas_lexemes, hcommas]

theorem parseExpr_alternativeStars {k : Nat} (hk : k + 1 ≤ maxDepth) :
    parseExpr (String.ofList (alternativeStars k)) = .ok (alternativeStarsExpr k) := by
  obtain ⟨t, hfits, hmeans, hheight, hw⟩ := exists_tree_alternativeStars k 0
  have hdepth : t.height ≤ maxDepth := by
    rw [hheight]
    exact hk
  exact parseExpr_of_writes (hfits.loosen (by decide)) hw hdepth hmeans
    (nodup_captures_alternativeStarsExpr k)

/-- **How high the expressions of accepted texts can get.**  The height of the expression of a text
with `k` commas may be more than the limit by `k`, and not by more. -/
theorem isGreatest_height_of_commas (k : Nat) :
    IsGreatest {h | ∃ source e, parseExpr source = .ok e ∧
      commas (lex source).lexemes = k ∧ e.height = h} (maxDepth + k) := by
  constructor
  · obtain ⟨hparse, hcommas⟩ := parseExpr_negatedFields k (j := maxDepth - 2) (by decide)
    refine ⟨_, _, hparse, hcommas, ?_⟩
    have htwo : 2 ≤ maxDepth := by decide
    rw [height_negatedFieldsExpr]
    omega
  · rintro h ⟨source, e, hparse, rfl, rfl⟩
    exact height_le_of_parseExpr hparse

/-- A star with two hundred fields. -/
theorem height_of_two_hundred_fields :
    ∃ e, parseExpr (String.ofList (negatedFields 199 0)) = .ok e ∧ maxDepth < e.height := by
  obtain ⟨hparse, -⟩ := parseExpr_negatedFields 199 (j := 0) (by decide)
  refine ⟨_, hparse, ?_⟩
  rw [height_negatedFieldsExpr]
  decide

/-! ### Texts of expressions -/

/-- **When the text of an accepted expression is too deep.**  It is so exactly if its tree, with the
parentheses that are written, is higher than the limit.  That tree is less than twice as high as the
tree of the accepted text, but for the commas. -/
theorem parseExpr_toSource_depth {source : String} {e : Expr} (h : parseExpr source = .ok e)
    (he : e.IsVerbatim) :
    ∃ t s, parseTree source = .ok t ∧ e.toSource = .ok s ∧
      e.printedHeight < 2 * t.height + t.commas ∧
      (parseExpr s = .ok e ↔ e.printedHeight ≤ maxDepth) ∧
      ((∃ o, parseExpr s = .error ⟨.tooDeep, o, s⟩) ↔ maxDepth < e.printedHeight) := by
  obtain ⟨t, ht, hmeans, hn⟩ := exists_tree_of_parseExpr h
  obtain ⟨s, hs⟩ := Expr.exists_prints_of_verbatim he
  obtain ⟨hok, hdeep⟩ := parseExpr_of_prints hs hn
  exact ⟨t, s, ht, hs.1, hmeans.printedHeight_lt, hok, hdeep⟩

/-- The text of the alternatives of a hundred stars is not too deep yet. -/
theorem parseExpr_toSource_hundred_stars :
    parseExpr (String.ofList (alternativeStars 99)) = .ok (alternativeStarsExpr 99) ∧
      (alternativeStarsExpr 99).IsVerbatim ∧
      ∃ s, (alternativeStarsExpr 99).toSource = .ok s ∧
        parseExpr s = .ok (alternativeStarsExpr 99) := by
  have hparse := parseExpr_alternativeStars (k := 99) (by decide)
  have hverbatim := verbatim_alternativeStarsExpr 99
  obtain ⟨t, s, -, hs, -, hok, -⟩ := parseExpr_toSource_depth hparse hverbatim
  refine ⟨hparse, hverbatim, s, hs, hok.2 ?_⟩
  rw [printedHeight_alternativeStarsExpr]
  decide

/-- With one star more it is. -/
theorem parseExpr_toSource_one_star_more :
    ∃ e s, parseExpr (String.ofList (alternativeStars 100)) = .ok e ∧ e.toSource = .ok s ∧
      ∃ o, parseExpr s = .error ⟨.tooDeep, o, s⟩ := by
  have hparse := parseExpr_alternativeStars (k := 100) (by decide)
  obtain ⟨s, hs⟩ := Expr.exists_prints_of_verbatim (verbatim_alternativeStarsExpr 100)
  have hn := nodup_captures_alternativeStarsExpr 100
  have hdeep : maxDepth < (alternativeStarsExpr 100).printedHeight := by
    rw [printedHeight_alternativeStarsExpr]
    decide
  exact ⟨_, s, hparse, hs.1, (parseExpr_of_prints hs hn).2.2 hdeep⟩

end Bibliograph.Selector
