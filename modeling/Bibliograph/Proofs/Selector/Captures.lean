import Bibliograph.Proofs.Selector.Acceptance
import Mathlib.Data.List.Nodup

/-!
# Names that are bound twice

Capture names are looked at in two ways.  The names of a syntax tree are collected from the leaves
upwards and sorted by the places where they are written; the names of an expression are those of its
captures, each before the ones inside it.  Both are the order of the text, so both find the same
name that is bound twice.

Main definitions:

* `Selector.boundNames`: the names in front of a colon, in the order of the lexemes;
* `Selector.IsFirstRepeat`: the first pair with a name that was there before;
* `Selector.Expr.BindsTwice`: two captures of an expression have the same name.

Main results:

* `Selector.Spells.increasing`: lexemes are in the order of their offsets;
* `Selector.boundNames_lexemes`: the names in front of a colon are the capture names of the tree;
* `Selector.Tree.sortedCaptures_eq`: sorting puts the names of a tree into the order of the text;
* `Selector.duplicate_captures_agree`: **texts and expressions are refused for the same name**, and
  a text that means an expression is not refused any more when a query is made of it.
-/

set_option autoImplicit false

namespace Bibliograph.Selector

/-! ### The order of lexemes -/

/-- The lexemes start at the offset or behind it, each behind the one before. -/
structure Increasing (n : Nat) (ls : List Lexeme) : Prop where
  le : ∀ l ∈ ls, n ≤ l.offset
  pairwise : ls.Pairwise fun l m => l.offset < m.offset

theorem Increasing.cons {n k : Nat} {ls : List Lexeme} (h : Increasing k ls) (hnk : n < k)
    (t : Token) : Increasing n (⟨t, n⟩ :: ls) := by
  refine ⟨fun l hl => ?_, .cons (fun m hm => ?_) h.pairwise⟩
  · rcases List.mem_cons.1 hl with rfl | hl
    · exact Nat.le_refl n
    · exact Nat.le_of_lt (Nat.lt_of_lt_of_le hnk (h.le l hl))
  · exact Nat.lt_of_lt_of_le hnk (h.le m hm)

/-- The lexemes of a text are in the order of their offsets. -/
theorem Spells.increasing {n : Nat} {cs : List Char} {ls : List Lexeme} (h : Spells n cs ls) :
    Increasing n ls := by
  induction h with
  | done n => exact ⟨fun l hl => absurd hl List.not_mem_nil, .nil⟩
  | skip _ _ ih => exact ⟨fun l hl => Nat.le_of_succ_le (ih.le l hl), ih.pairwise⟩
  | mark _ _ ih => exact ih.cons (Nat.lt_succ_self _) _
  | bare _ _ _ _ ih => exact ih.cons (by omega) _
  | quoted _ _ ih => exact ih.cons (by omega) _

/-! ### Names in front of a colon -/

/-- Whether no colon comes first. -/
def NoColon (ls : List Lexeme) : Prop :=
  ∀ l ∈ ls.head?, l.token ≠ .colon

theorem noColon_cons {t : Token} (h : t ≠ .colon) (o : Nat) (ls : List Lexeme) :
    NoColon (⟨t, o⟩ :: ls) := by
  intro l hl
  cases hl
  exact h

/-- The names in front of a colon with their offsets, in the order of the lexemes. -/
def boundNames : List Lexeme → List (String × Nat)
  | ⟨.name n, o⟩ :: ⟨.colon, _⟩ :: ls => (n.value, o) :: boundNames ls
  | _ :: ls => boundNames ls
  | [] => []

theorem boundNames_name (n : Name) (o c : Nat) (ls : List Lexeme) :
    boundNames (⟨.name n, o⟩ :: ⟨.colon, c⟩ :: ls) = (n.value, o) :: boundNames ls := by
  rw [boundNames]

theorem boundNames_of_noColon {ls : List Lexeme} (h : NoColon ls) (l : Lexeme) :
    boundNames (l :: ls) = boundNames ls := by
  rw [boundNames]
  rintro n o c ms rfl rfl
  exact h _ rfl rfl

theorem boundNames_of_mark {t : Token} (h : ∀ n, t ≠ .name n) (o : Nat) (ls : List Lexeme) :
    boundNames (⟨t, o⟩ :: ls) = boundNames ls := by
  rw [boundNames]
  rintro n _ _ _ hl _
  cases hl
  exact h n rfl

/-- The names of a filter are in front of commas and of the bracket. -/
theorem boundNames_fields (f : FieldList) (closing : Nat) (ls : List Lexeme) :
    boundNames (f.lexemes ++ ⟨.closeBracket, closing⟩ :: ls) = boundNames ls := by
  obtain ⟨first, more⟩ := f
  induction more generalizing first with
  | nil =>
      rw [FieldList.lexemes, List.flatMap_nil, List.singleton_append,
        boundNames_of_noColon (noColon_cons (by simp) _ _), boundNames_of_mark (by simp)]
  | cons m ms ih =>
      have hrest := ih m.2
      simp only [FieldList.lexemes, List.flatMap_cons, List.cons_append, List.nil_append] at hrest ⊢
      rw [boundNames_of_noColon (noColon_cons (by simp) _ _), boundNames_of_mark (by simp), hrest]

/-- **The capture names of a tree are the names in front of a colon**, in the same order. -/
theorem boundNames_append (t : Tree) {rest : List Lexeme} (h : NoColon rest) :
    boundNames (t.lexemes ++ rest) = t.captures ++ boundNames rest := by
  induction t generalizing rest with
  | type name offset => exact boundNames_of_noColon h _
  | wildcard star => exact boundNames_of_mark (by simp) star rest
  | group opening inner closing ih =>
      simp only [Tree.lexemes, Tree.captures, List.cons_append, List.append_assoc,
        List.nil_append]
      rw [boundNames_of_mark (by simp), ih (noColon_cons (by simp) _ _),
        boundNames_of_mark (by simp)]
  | capture name colon inner ih =>
      simp only [Tree.lexemes, Tree.captures, List.cons_append, NameAt.lexeme]
      rw [boundNames_name, ih h]
  | filter inner opening fields closing ih =>
      simp only [Tree.lexemes, Tree.captures, List.cons_append, List.append_assoc,
        List.nil_append]
      rw [ih (noColon_cons (by simp) _ _), boundNames_of_mark (by simp), boundNames_fields]
  | negation bang inner ih =>
      simp only [Tree.lexemes, Tree.captures, List.cons_append]
      rw [boundNames_of_mark (by simp), ih h]
  | conjunction left mark right ihl ihr =>
      simp only [Tree.lexemes, Tree.captures, List.cons_append, List.append_assoc]
      rw [ihl (noColon_cons (by simp) _ _), boundNames_of_mark (by simp), ihr h]
  | alternative left mark right ihl ihr =>
      simp only [Tree.lexemes, Tree.captures, List.cons_append, List.append_assoc]
      rw [ihl (noColon_cons (by simp) _ _), boundNames_of_mark (by simp), ihr h]
  | parent child mark ancestor ihc iha =>
      simp only [Tree.lexemes, Tree.captures, List.cons_append, List.append_assoc]
      rw [ihc (noColon_cons (by simp) _ _), boundNames_of_mark (by simp), iha h]

theorem boundNames_lexemes (t : Tree) : boundNames t.lexemes = t.captures := by
  have hnil : NoColon [] := fun l hl => by cases hl
  have happend := boundNames_append t hnil
  rw [List.append_nil] at happend
  exact happend.trans (List.append_nil _)

/-- The names are at offsets of lexemes. -/
theorem offsets_boundNames_sublist (ls : List Lexeme) :
    ((boundNames ls).map Prod.snd).Sublist (ls.map Lexeme.offset) := by
  fun_induction boundNames ls with
  | case1 n o c ls ih => exact (ih.cons _).cons_cons _
  | case2 l ls _ ih => exact ih.cons _
  | case3 => exact .slnil

/-! ### Sorting -/

/-- The names of a tree are in the order of their offsets, if its lexemes are. -/
theorem Tree.pairwise_captures {t : Tree} {n : Nat} (h : Increasing n t.lexemes) :
    t.captures.Pairwise fun p q => p.2 < q.2 := by
  have hoffsets : (t.lexemes.map Lexeme.offset).Pairwise (· < ·) := List.pairwise_map.2 h.pairwise
  have hsub := offsets_boundNames_sublist t.lexemes
  rw [boundNames_lexemes] at hsub
  exact List.pairwise_map.1 (hoffsets.sublist hsub)

/-- **Sorting the names that were collected upwards gives the order of the text.** -/
theorem Tree.sortedCaptures_eq {t : Tree} {n : Nat} (h : Increasing n t.lexemes) :
    t.sortedCaptures = t.captures := by
  have hcaptures := t.pairwise_captures h
  have hperm : t.sortedCaptures.Perm t.captures := (List.mergeSort_perm _ _).trans t.collected_perm
  have hsorted : t.sortedCaptures.Pairwise fun p q => p.2 ≤ q.2 := by
    refine (List.pairwise_mergeSort ?_ ?_ t.collected).imp fun h => of_decide_eq_true h
    · intro a b c hab hbc
      exact decide_eq_true (Nat.le_trans (of_decide_eq_true hab) (of_decide_eq_true hbc))
    · intro a b
      rw [Bool.or_eq_true, decide_eq_true_iff, decide_eq_true_iff]
      exact Nat.le_total a.2 b.2
  have hnodup : (t.captures.map Prod.snd).Nodup :=
    List.pairwise_map.2 (hcaptures.imp fun h => Nat.ne_of_lt h)
  refine hperm.eq_of_pairwise ?_ hsorted (hcaptures.imp fun h => Nat.le_of_lt h)
  intro p q hp hq hpq hqp
  exact List.inj_on_of_nodup_map hnodup (hperm.mem_iff.1 hp) hq (Nat.le_antisymm hpq hqp)

/-! ### The first name that is there again -/

/-- The pair is the first one whose name a pair in front of it has. -/
def IsFirstRepeat (ps : List (String × Nat)) (p : String × Nat) : Prop :=
  ∃ before after, ps = before ++ p :: after ∧ p.1 ∈ before.map Prod.fst ∧
    (before.map Prod.fst).Nodup

theorem firstRepeated?_eq_some {seen : List String} {ps : List (String × Nat)} {p : String × Nat}
    (h : firstRepeated? seen ps = some p) :
    ∃ before after, ps = before ++ p :: after ∧ (p.1 ∈ seen ∨ p.1 ∈ before.map Prod.fst) ∧
      (before.map Prod.fst).Nodup ∧ ∀ q ∈ before, q.1 ∉ seen := by
  induction ps generalizing seen with
  | nil => cases h
  | cons q ps ih =>
      rw [firstRepeated?] at h
      split at h
      · rename_i hseen
        cases h
        exact ⟨[], ps, rfl, .inl hseen, .nil, fun q hq => absurd hq List.not_mem_nil⟩
      · rename_i hseen
        obtain ⟨before, after, rfl, hp, hnodup, hbefore⟩ := ih h
        have hq : q.1 ∉ before.map Prod.fst := by
          intro hmem
          obtain ⟨b, hb, hbq⟩ := List.mem_map.1 hmem
          exact hbefore b hb (hbq ▸ List.mem_cons_self ..)
        refine ⟨q :: before, after, rfl, ?_, List.nodup_cons.2 ⟨hq, hnodup⟩, ?_⟩
        · rcases hp with hp | hp
          · rcases List.mem_cons.1 hp with hp | hp
            · exact .inr (hp ▸ List.mem_cons_self ..)
            · exact .inl hp
          · exact .inr (List.mem_cons_of_mem _ hp)
        · intro b hb
          rcases List.mem_cons.1 hb with rfl | hb
          · exact hseen
          · exact fun hmem => hbefore b hb (List.mem_cons_of_mem _ hmem)

/-- With nothing seen before, a name is found exactly if one is there twice. -/
theorem exists_firstRepeated?_iff (ps : List (String × Nat)) :
    (∃ p, firstRepeated? [] ps = some p) ↔ ¬ (ps.map Prod.fst).Nodup := by
  have hnone : firstRepeated? [] ps = none ↔ (ps.map Prod.fst).Nodup := by
    rw [firstRepeated?_eq_none_iff]
    exact and_iff_left fun _ _ => List.not_mem_nil
  rw [← hnone, ← Option.isSome_iff_exists, Option.isSome_iff_ne_none]

theorem isFirstRepeat_of_firstRepeated? {ps : List (String × Nat)} {p : String × Nat}
    (h : firstRepeated? [] ps = some p) : IsFirstRepeat ps p := by
  obtain ⟨before, after, hps, hp, hnodup, -⟩ := firstRepeated?_eq_some h
  exact ⟨before, after, hps, hp.resolve_left List.not_mem_nil, hnodup⟩

/-- The offsets do not matter for the name that is found. -/
theorem firstRepeated?_map_fst (seen : List String) (ps : List (String × Nat)) :
    firstRepeated? seen ((ps.map Prod.fst).map fun n => (n, 0)) =
      (firstRepeated? seen ps).map fun p => (p.1, 0) := by
  induction ps generalizing seen with
  | nil => rfl
  | cons p ps ih =>
      simp only [List.map_cons, firstRepeated?]
      by_cases h : p.1 ∈ seen
      · rw [if_pos h, if_pos h]
        rfl
      · rw [if_neg h, if_neg h]
        exact ih (p.1 :: seen)

/-! ### Two captures with one name -/

/-- Two of the captures in the expression have the name. -/
def Expr.BindsTwice (e : Expr) (n : String) : Prop :=
  ∃ (i j : Nat) (a b : Expr), i < j ∧ e.subterms[i]? = some (capture n a) ∧
    e.subterms[j]? = some (capture n b)

theorem Expr.captureName?_eq_some_iff {e : Expr} {n : String} :
    e.captureName? = some n ↔ ∃ a, e = .capture n a := by
  cases e <;> simp [captureName?]

theorem Expr.not_nodup_captures_iff (e : Expr) : ¬ e.captures.Nodup ↔ ∃ n, e.BindsTwice n := by
  unfold captures List.Nodup
  rw [List.pairwise_filterMap, List.pairwise_iff_getElem]
  constructor
  · intro h
    by_contra hnone
    refine h fun i j hi hj hij n hn m hm hnm => hnone ?_
    obtain ⟨a, ha⟩ := captureName?_eq_some_iff.1 hn
    obtain ⟨b, hb⟩ := captureName?_eq_some_iff.1 (hnm ▸ hm)
    exact ⟨n, i, j, a, b, hij, List.getElem?_eq_some_iff.2 ⟨hi, ha⟩,
      List.getElem?_eq_some_iff.2 ⟨hj, hb⟩⟩
  · rintro ⟨n, i, j, a, b, hij, ha, hb⟩ h
    obtain ⟨hi, ha⟩ := List.getElem?_eq_some_iff.1 ha
    obtain ⟨hj, hb⟩ := List.getElem?_eq_some_iff.1 hb
    exact h i j hi hj hij n (captureName?_eq_some_iff.2 ⟨a, ha⟩) n
      (captureName?_eq_some_iff.2 ⟨b, hb⟩) rfl

/-! ### Texts that are refused for a name -/

/-- An expression is refused for the name that is there again in any list with its names. -/
theorem Query.ofExpr_of_repeated {e : Expr} {ps : List (String × Nat)} {p : String × Nat}
    (hcaptures : e.captures = ps.map Prod.fst) (h : firstRepeated? [] ps = some p)
    (text : String) : Query.ofExpr e text = .error ⟨.duplicateBinding p.1, 0, text⟩ := by
  rw [Query.ofExpr, hcaptures, firstRepeated?_map_fst, h]
  rfl

theorem Query.ofExpr_of_nodup {e : Expr} (h : e.captures.Nodup) (text : String) :
    Query.ofExpr e text = .ok ⟨e, text⟩ := by
  have hnone : firstRepeated? [] (e.captures.map fun n => (n, 0)) = none := by
    refine (firstRepeated?_eq_none_iff _ _).2 ⟨?_, fun _ _ => List.not_mem_nil⟩
    rw [List.map_map]
    exact (List.map_id' e.captures).symm ▸ h
  rw [Query.ofExpr, hnone]

/-- What passed the check of its capture names as a text passes it as an expression. -/
theorem Query.parse_eq (source : String) :
    Query.parse source = (parseExpr source).map fun e => ⟨e, source⟩ := by
  rw [Query.parse]
  cases hparse : parseExpr source with
  | error err => rfl
  | ok e =>
      obtain ⟨_, _, _, hnodup⟩ := exists_tree_of_parseExpr hparse
      exact Query.ofExpr_of_nodup hnodup source

section Checked

variable {source : String} {t : Tree} {e : Expr} (ht : parseTree source = .ok t)
  (he : t.toExpr = .ok e)
include ht he

/-- The last check of a text is that of its capture names, in the order of the text. -/
theorem parseExpr_of_tree :
    parseExpr source = match firstRepeated? [] t.captures with
      | some (n, o) => .error ⟨.duplicateBinding n, o, source⟩
      | none => .ok e := by
  obtain ⟨-, hspells, -⟩ := parseTree_eq_ok_iff.1 ht
  unfold parseExpr parseExprFault
  simp only [ht, he, t.sortedCaptures_eq hspells.increasing]
  cases firstRepeated? [] t.captures with
  | none => rfl
  | some p => rfl

theorem parseExpr_eq_duplicate_iff {n : String} {o : Nat} :
    parseExpr source = .error ⟨.duplicateBinding n, o, source⟩ ↔
      firstRepeated? [] t.captures = some (n, o) := by
  rw [parseExpr_of_tree ht he]
  cases firstRepeated? [] t.captures with
  | none => simp
  | some p => simp [Prod.ext_iff]

theorem exists_duplicate_or_eq_ok :
    (∃ n o, parseExpr source = .error ⟨.duplicateBinding n, o, source⟩) ∨
      parseExpr source = .ok e := by
  rw [parseExpr_of_tree ht he]
  cases firstRepeated? [] t.captures with
  | none => exact .inr rfl
  | some p => exact .inl ⟨p.1, p.2, rfl⟩

/-- The expression has the capture names of the tree. -/
theorem captures_of_tree : e.captures = t.captures.map Prod.fst := by
  obtain ⟨-, hspells, -⟩ := parseTree_eq_ok_iff.1 ht
  exact (Tree.means_of_toExpr he fun w o => hspells.isNameChar_of_bare).captures_eq

theorem exists_duplicate_iff :
    (∃ n o, parseExpr source = .error ⟨.duplicateBinding n, o, source⟩) ↔ ∃ n, e.BindsTwice n := by
  rw [← e.not_nodup_captures_iff, captures_of_tree ht he, ← exists_firstRepeated?_iff]
  simp only [parseExpr_eq_duplicate_iff ht he, Prod.exists]

end Checked

/-- **Texts and expressions are refused for the same name.**  A text that passes the other checks is
refused for a name that is bound twice exactly if two captures of its expression have one name.  It
is then the first name in front of a colon that was there before, and the one for which the
expression is refused as well.  Otherwise the text means the expression; so a text that means an
expression has a query, and one that does not is refused in the same way when a query is made of
it. -/
theorem duplicate_captures_agree (source : String) :
    (∀ t e, parseTree source = .ok t → t.toExpr = .ok e →
      ((∃ n o, parseExpr source = .error ⟨.duplicateBinding n, o, source⟩) ↔
        ∃ n, e.BindsTwice n) ∧
      ((¬ ∃ n, e.BindsTwice n) → parseExpr source = .ok e) ∧
      ∀ n o, parseExpr source = .error ⟨.duplicateBinding n, o, source⟩ →
        IsFirstRepeat (boundNames (lex source).lexemes) (n, o) ∧
        ∀ text, Query.ofExpr e text = .error ⟨.duplicateBinding n, 0, text⟩) ∧
    Query.parse source = (parseExpr source).map fun e => ⟨e, source⟩ := by
  refine ⟨fun t e ht he => ⟨exists_duplicate_iff ht he, fun hnone => ?_, fun n o hparse => ?_⟩,
    Query.parse_eq source⟩
  · exact (exists_duplicate_or_eq_ok ht he).resolve_left (mt (exists_duplicate_iff ht he).1 hnone)
  · have hlex : lex source = ⟨t.lexemes, none⟩ := spells_iff.1 (parseTree_eq_ok_iff.1 ht).2.1
    have hrepeated := (parseExpr_eq_duplicate_iff ht he).1 hparse
    rw [hlex, boundNames_lexemes]
    exact ⟨isFirstRepeat_of_firstRepeated? hrepeated,
      Query.ofExpr_of_repeated (captures_of_tree ht he) hrepeated⟩

/-- The tree of a text in which the name of the outermost capture is there again, in quotes. -/
theorem parseTree_nested_captures :
    parseTree "a:(b:(\"a\":*))" = .ok (.capture ⟨.bare "a", 0⟩ 1
      (.group 2 (.capture ⟨.bare "b", 3⟩ 4
        (.group 5 (.capture ⟨.quoted "a", 6⟩ 9 (.wildcard 10)) 11)) 12)) := by
  refine parseTree_eq_ok_iff.2 ⟨?_, ?_, by decide⟩
  · have inner : (Tree.capture ⟨.quoted "a", 6⟩ 9 (.wildcard 10)).Fits .relation :=
      ((Tree.Fits.wildcard 10).capture _ 9).loosen (by decide)
    have middle : (Tree.capture ⟨.bare "b", 3⟩ 4 (.group 5
        (.capture ⟨.quoted "a", 6⟩ 9 (.wildcard 10)) 11)).Fits .relation :=
      ((inner.group 5 11).capture _ 4).loosen (by decide)
    exact ((middle.group 2 12).capture _ 1).loosen (by decide)
  · have htext : "a:(b:(\"a\":*))".toList =
        'a' :: ([] ++ ':' :: '(' :: 'b' :: ([] ++ ':' :: '(' :: '"' :: (['a'] ++ '"' ::
          [':', '*', ')', ')']))) := by
      decide
    have hquoted : Enclosed ['a'] := .plain (by decide) (by decide) .nil
    rw [htext]
    refine .bare (by decide) (by simp) (head?_not_nameChar (by decide) _) (.mark rfl (.mark rfl ?_))
    refine .bare (by decide) (by simp) (head?_not_nameChar (by decide) _) (.mark rfl (.mark rfl ?_))
    exact .quoted hquoted (.mark rfl (.mark rfl (.mark rfl (.mark rfl (.done _)))))

/-- Of three captures, one inside the other, the innermost has the name of the outermost; a star has
no capture. -/
theorem duplicate_captures_agree_of_nested :
    parseExpr "a:(b:(\"a\":*))" = .error ⟨.duplicateBinding "a", 6, "a:(b:(\"a\":*))"⟩ ∧
      (Expr.capture "a" (.capture "b" (.capture "a" .any))).BindsTwice "a" ∧
      IsFirstRepeat (boundNames (lex "a:(b:(\"a\":*))").lexemes) ("a", 6) ∧
      Query.ofExpr (.capture "a" (.capture "b" (.capture "a" .any))) "" =
        .error ⟨.duplicateBinding "a", 0, ""⟩ ∧
      parseExpr "*" = .ok .any := by
  have hmeans : (Tree.capture ⟨.bare "a", 0⟩ 1 (.group 2 (.capture ⟨.bare "b", 3⟩ 4
      (.group 5 (.capture ⟨.quoted "a", 6⟩ 9 (.wildcard 10)) 11)) 12)).toExpr =
        .ok (.capture "a" (.capture "b" (.capture "a" .any))) := by
    decide
  have hparse := parseExpr_of_tree parseTree_nested_captures hmeans
  have htwice : (Expr.capture "a" (.capture "b" (.capture "a" .any))).BindsTwice "a" :=
    ⟨0, 2, _, _, by decide, rfl, rfl⟩
  obtain ⟨-, -, hrefused⟩ := (duplicate_captures_agree "a:(b:(\"a\":*))").1 _ _
    parseTree_nested_captures hmeans
  obtain ⟨hrepeat, hquery⟩ := hrefused "a" 6 hparse
  have hstar : parseTree "*" = .ok (.wildcard 0) := by
    have htext : "*".toList = ['*'] := by decide
    refine parseTree_eq_ok_iff.2 ⟨(Tree.Fits.wildcard 0).loosen (by decide), ?_, by decide⟩
    rw [htext]
    exact .mark rfl (.done _)
  have hany : ¬ ∃ n, Expr.any.BindsTwice n := by
    rw [← Expr.any.not_nodup_captures_iff]
    exact not_not.2 .nil
  obtain ⟨-, hread, -⟩ := (duplicate_captures_agree "*").1 _ _ hstar rfl
  exact ⟨hparse, htwice, hrepeat, hquery "", hread hany⟩

end Bibliograph.Selector
