import Bibliograph.Proofs.Selector.Acceptance
import Bibliograph.Proofs.Selector.Escape

/-!
# Printing and reading back

The text of an expression holds no redundant information for the reader: where the printer leaves
out parentheses, the strata put the same operators together.  An operator is in parentheses, so it
is a primary; a negation is a negated, and nothing else is looser than a filtered.  Only a filter
on a negation needs parentheses of its own.

Main definitions:

* `Selector.IsPlainName`, `Selector.Expr.IsPrintable`: the names that need no escape, and the
  expressions with such names;
* `Selector.Expr.IsVerbatim`: the expressions whose names may have a backslash, if it is kept;
* `Selector.Expr.printedHeight`: how high the syntax tree of the text is;
* `Selector.Writes`: characters that are written for lexemes, whatever follows;
* `Selector.Expr.Prints`: an expression with its text, which has a tree that means it.

Main results:

* `Selector.Expr.exists_prints_of_verbatim`: every expression with verbatim names has a text that
  means it;
* `Selector.toSource_roundtrip`: **the text of an expression means the expression**, and different
  expressions have different texts.
-/

set_option autoImplicit false

namespace Bibliograph.Selector

/-! ### Printable expressions -/

/-- The names that stand between quotes as they are. -/
def IsPlainName (n : String) : Prop :=
  n ≠ "" ∧ '"' ∉ n.toList ∧ '\\' ∉ n.toList

namespace Expr

/-- The expressions without foreign parts in which all names are plain. -/
def IsPrintable : Expr → Prop
  | type _ => True
  | any => True
  | not e => e.IsPrintable
  | and l r => l.IsPrintable ∧ r.IsPrintable
  | or l r => l.IsPrintable ∧ r.IsPrintable
  | parent c a => c.IsPrintable ∧ a.IsPrintable
  | filter e f => e.IsPrintable ∧ IsPlainName f
  | capture n e => e.IsPrintable ∧ IsPlainName n
  | foreign _ => False

/-- The expressions without foreign parts in which all names are verbatim. -/
def IsVerbatim : Expr → Prop
  | type _ => True
  | any => True
  | not e => e.IsVerbatim
  | and l r => l.IsVerbatim ∧ r.IsVerbatim
  | or l r => l.IsVerbatim ∧ r.IsVerbatim
  | parent c a => c.IsVerbatim ∧ a.IsVerbatim
  | filter e f => e.IsVerbatim ∧ IsVerbatimName f
  | capture n e => e.IsVerbatim ∧ IsVerbatimName n
  | foreign _ => False

/-- The height of the syntax tree of the text, where the parentheses that are written count. -/
def printedHeight : Expr → Nat
  | type _ => 1
  | any => 1
  | not e => e.printedHeight + 1
  | and l r => max l.printedHeight r.printedHeight + 2
  | or l r => max l.printedHeight r.printedHeight + 2
  | parent c a => max c.printedHeight a.printedHeight + 2
  | filter e _ => (if e.isNot then e.printedHeight + 1 else e.printedHeight) + 1
  | capture _ e => e.printedHeight + 2
  | foreign _ => 1

/-- The stratum of the text. -/
def stratum : Expr → Stratum
  | not _ => .negated
  | filter _ _ => .filtered
  | capture _ _ => .captured
  | _ => .primary

/-- No text is looser than a negated. -/
theorem negated_le_stratum (e : Expr) : Stratum.negated.rank ≤ e.stratum.rank := by
  cases e <;> simp [stratum, Stratum.rank]

/-- Only a negation is looser than a filtered. -/
theorem filtered_le_stratum {e : Expr} (h : e.isNot = false) :
    Stratum.filtered.rank ≤ e.stratum.rank := by
  cases e with
  | not e => cases h
  | _ => simp [stratum, Stratum.rank]

end Expr

/-! ### Writing lexemes -/

/-- The characters, from an offset on, are written for the lexemes, whatever follows, unless it goes
on with a name. -/
def Writes (n : Nat) (cs : List Char) (ms : List Lexeme) : Prop :=
  ∀ (rest : List Char) (ls : List Lexeme), (∀ c ∈ rest.head?, isNameChar c = false) →
    Spells (n + cs.length) rest ls → Spells n (cs ++ rest) (ms ++ ls)

theorem Writes.nil (n : Nat) : Writes n [] [] :=
  fun _ _ _ h => h

theorem Writes.spells {n : Nat} {cs : List Char} {ms : List Lexeme} (h : Writes n cs ms) :
    Spells n cs ms := by
  have := h [] [] (by simp) (.done _)
  rwa [List.append_nil, List.append_nil] at this

theorem Writes.mark {n : Nat} {c : Char} {t : Token} {cs : List Char} {ms : List Lexeme}
    (hc : mark? c = some t) (h : Writes (n + 1) cs ms) : Writes n (c :: cs) (⟨t, n⟩ :: ms) := by
  intro rest ls hrest hs
  refine .mark hc (h rest ls hrest ?_)
  rwa [List.length_cons, ← Nat.add_assoc, Nat.add_right_comm] at hs

theorem Writes.skip {n : Nat} {c : Char} {cs : List Char} {ms : List Lexeme}
    (hc : isIgnorable c = true) (h : Writes (n + 1) cs ms) : Writes n (c :: cs) ms := by
  intro rest ls hrest hs
  refine .skip hc (h rest ls hrest ?_)
  rwa [List.length_cons, ← Nat.add_assoc, Nat.add_right_comm] at hs

theorem Writes.word {n : Nat} {c : Char} {run : List Char} (hc : isNameStart c = true)
    (hrun : ∀ d ∈ run, isNameChar d = true) :
    Writes n (c :: run) [⟨.name (.bare (String.ofList (c :: run))), n⟩] := by
  intro rest ls hrest hs
  refine .bare hc hrun hrest ?_
  rwa [List.length_cons, ← Nat.add_assoc, Nat.add_right_comm] at hs

theorem Writes.quoted {n : Nat} {raw cs : List Char} {ms : List Lexeme} (hraw : Enclosed raw)
    (h : Writes (n + 2 + raw.length) cs ms) :
    Writes n ('"' :: (raw ++ '"' :: cs)) (⟨.name (.quoted (String.ofList raw)), n⟩ :: ms) := by
  intro rest ls hrest hs
  have hlen : n + ('"' :: (raw ++ '"' :: cs)).length = n + 2 + raw.length + cs.length := by
    simp only [List.length_cons, List.length_append]
    omega
  rw [hlen] at hs
  have := Spells.quoted hraw (h rest ls hrest hs)
  rwa [List.cons_append, List.append_assoc, List.cons_append]

/-- What is written next must not go on with a name. -/
theorem Writes.append {n : Nat} {cs ds : List Char} {c : Char} {ms ns : List Lexeme}
    (h : Writes n cs ms) (hc : isNameChar c = false) (h' : Writes (n + cs.length) (c :: ds) ns) :
    Writes n (cs ++ c :: ds) (ms ++ ns) := by
  intro rest ls hrest hs
  rw [List.length_append, ← Nat.add_assoc] at hs
  rw [List.append_assoc, List.append_assoc]
  exact h _ _ (head?_not_nameChar hc _) (h' rest ls hrest hs)

theorem Writes.parenthesized {n : Nat} {cs : List Char} {ms : List Lexeme}
    (h : Writes (n + 1) cs ms) :
    Writes n ('(' :: (cs ++ [')']))
      (⟨.openParen, n⟩ :: (ms ++ [⟨.closeParen, n + 1 + cs.length⟩])) :=
  .mark (by decide) (h.append (by decide) (.mark (by decide) (.nil _)))

/-- A name without escapes in brackets. -/
theorem Writes.bracketed {n : Nat} {raw : List Char} (hraw : Enclosed raw) :
    Writes n ('[' :: '"' :: (raw ++ ['"', ']']))
      [⟨.openBracket, n⟩, ⟨.name (.quoted (String.ofList raw)), n + 1⟩,
        ⟨.closeBracket, n + 1 + 2 + raw.length⟩] :=
  .mark (by decide) (.quoted hraw (.mark (by decide) (.nil _)))

/-- Nothing is escaped in a plain name. -/
theorem IsPlainName.verbatim {f : String} (h : IsPlainName f) : IsVerbatimName f := by
  have all : ∀ cs : List Char, '"' ∉ cs → '\\' ∉ cs → Verbatim cs := by
    intro cs hq hb
    induction cs with
    | nil => exact .nil
    | cons c cs ih =>
        simp only [List.mem_cons, not_or] at hq hb
        exact .plain (Ne.symm hq.1) (Ne.symm hb.1) (ih hq.2 hb.2)
  exact ⟨h.1, all f.toList h.2.1 h.2.2⟩

/-- The names of the types are words in lower case. -/
theorem exists_name_eq_cons (ty : EntryType) : ∃ c run, ty.name.toList = c :: run ∧
    isNameStart c = true ∧ (∀ d ∈ run, isNameChar d = true) ∧
      ty.name.toList.map Char.toLower = ty.name.toList := by
  have hall : ty.name.toList.all (fun d => decide (d.isAlpha = true ∧ d.toLower = d)) = true := by
    cases ty <;> decide
  have hlower : ∀ d ∈ ty.name.toList, d.isAlpha = true ∧ d.toLower = d :=
    fun d hd => of_decide_eq_true (List.all_eq_true.1 hall d hd)
  have hne : ty.name.toList ≠ [] := by
    cases ty <;> decide
  cases hname : ty.name.toList with
  | nil => exact absurd hname hne
  | cons c run =>
      rw [hname] at hlower
      refine ⟨c, run, rfl, ?_, ?_, ?_⟩
      · simp [isNameStart, (hlower c (List.mem_cons_self ..)).1]
      · intro d hd
        have := (hlower d (List.mem_cons_of_mem _ hd)).1
        simp [isNameChar, Char.isAlphanum, this]
      · rw [List.map_congr_left fun d hd => (hlower d hd).2, List.map_id']

/-! ### Expressions and their texts -/

namespace Expr

/-- The text of an expression.  Wherever it starts, it is written for the lexemes of a tree that
means the expression. -/
def Prints (e : Expr) (s : String) : Prop :=
  e.toSource = .ok s ∧ ∀ n : Nat, ∃ t : Tree, t.Fits e.stratum ∧ t.Means e ∧
    t.height = e.printedHeight ∧ Writes n s.toList t.lexemes

theorem prints_type (ty : EntryType) : (type ty).Prints ty.name := by
  obtain ⟨c, run, hname, hc, hrun, hlower⟩ := exists_name_eq_cons ty
  refine ⟨rfl, fun n => ⟨.type ty.name n, .type _ _, .type hlower, rfl, ?_⟩⟩
  have := Writes.word (n := n) hc hrun
  rwa [← hname, String.ofList_toList] at this

theorem prints_any : any.Prints "*" :=
  ⟨rfl, fun n => ⟨.wildcard n, .wildcard _, .wildcard, rfl, .mark (by decide) (.nil _)⟩⟩

theorem prints_not {e : Expr} {s : String} (h : e.Prints s) : (not e).Prints ("!" ++ s) := by
  refine ⟨by rw [toSource, h.1]; rfl, fun n => ?_⟩
  obtain ⟨t, hfits, hmeans, hheight, hw⟩ := h.2 (n + 1)
  refine ⟨.negation n t, (hfits.loosen e.negated_le_stratum).negation n, .negation hmeans, ?_, ?_⟩
  · rw [Tree.height, hheight, printedHeight]
  · rw [String.toList_append]
    exact .mark (by decide) hw

/-- A construct with two sides: how it is written, and how its tree is built from theirs. -/
structure TwoSided (construct : Expr → Expr → Expr) (op : String) (c : Char) (token : Token)
    (build : Tree → Nat → Tree → Tree) : Prop where
  source : ∀ {l r : Expr} {sl sr : String}, l.toSource = .ok sl → r.toSource = .ok sr →
    (construct l r).toSource = .ok ("(" ++ sl ++ op ++ sr ++ ")")
  written : op.toList = [' ', c, ' ']
  mark : mark? c = some token
  stratum : ∀ l r, (construct l r).stratum = .primary
  printedHeight : ∀ l r : Expr,
    (construct l r).printedHeight = max l.printedHeight r.printedHeight + 2
  lexemes : ∀ tl m tr, (build tl m tr).lexemes = tl.lexemes ++ ⟨token, m⟩ :: tr.lexemes
  height : ∀ tl m tr, (build tl m tr).height = max tl.height tr.height + 1
  fits : ∀ {tl tr : Tree} (m : Nat), tl.Fits .negated → tr.Fits .negated →
    (build tl m tr).Fits .relation
  means : ∀ {l r : Expr} {tl tr : Tree} (m : Nat), tl.Means l → tr.Means r →
    (build tl m tr).Means (construct l r)

theorem twoSided_and : TwoSided and " & " '&' .ampersand .conjunction where
  source hl hr := by rw [toSource, hl, hr]; rfl
  written := by decide
  mark := by decide
  stratum _ _ := rfl
  printedHeight _ _ := rfl
  lexemes _ _ _ := rfl
  height _ _ _ := rfl
  fits m hl hr := ((hl.loosen (by decide)).conjunction hr m).loosen (by decide)
  means _ hl hr := .conjunction hl hr

theorem twoSided_or : TwoSided or " | " '|' .bar .alternative where
  source hl hr := by rw [toSource, hl, hr]; rfl
  written := by decide
  mark := by decide
  stratum _ _ := rfl
  printedHeight _ _ := rfl
  lexemes _ _ _ := rfl
  height _ _ _ := rfl
  fits m hl hr := ((hl.loosen (by decide)).alternative (hr.loosen (by decide)) m).loosen (by decide)
  means _ hl hr := .alternative hl hr

theorem twoSided_parent : TwoSided parent " > " '>' .greater .parent where
  source hl hr := by rw [toSource, hl, hr]; rfl
  written := by decide
  mark := by decide
  stratum _ _ := rfl
  printedHeight _ _ := rfl
  lexemes _ _ _ := rfl
  height _ _ _ := rfl
  fits m hl hr := (hl.loosen (by decide)).parent (hr.loosen (by decide)) m
  means _ hl hr := .parent hl hr

/-- A construct with two sides is written as a group. -/
theorem Prints.twoSided {construct : Expr → Expr → Expr} {op : String} {c : Char} {token : Token}
    {build : Tree → Nat → Tree → Tree} (hop : TwoSided construct op c token build) {l r : Expr}
    {sl sr : String} (hl : l.Prints sl) (hr : r.Prints sr) :
    (construct l r).Prints ("(" ++ sl ++ op ++ sr ++ ")") := by
  refine ⟨hop.source hl.1 hr.1, fun n => ?_⟩
  obtain ⟨tl, hfl, hml, hhl, hwl⟩ := hl.2 (n + 1)
  obtain ⟨tr, hfr, hmr, hhr, hwr⟩ := hr.2 (n + 1 + sl.toList.length + 1 + 1 + 1)
  have hblank : isIgnorable ' ' = true := by decide
  have hw := (hwl.append (by decide) (.skip hblank
    (.mark hop.mark (.skip hblank hwr)))).parenthesized
  have htext : ("(" ++ sl ++ op ++ sr ++ ")").toList =
      '(' :: (sl.toList ++ ' ' :: c :: ' ' :: sr.toList ++ [')']) := by
    simp [String.toList_append, hop.written]
  have hfits := hop.fits (n + 1 + sl.toList.length + 1) (hfl.loosen l.negated_le_stratum)
    (hfr.loosen r.negated_le_stratum)
  rw [htext, hop.stratum, hop.printedHeight]
  refine ⟨_, hfits.group n (n + 1 + (sl.toList ++ ' ' :: c :: ' ' :: sr.toList).length),
    .group (hop.means _ hml hmr), ?_, ?_⟩
  · rw [Tree.height, hop.height, hhl, hhr]
  · rw [Tree.lexemes, hop.lexemes]
    exact hw

/-- What a filter is written after: the text, in parentheses if it is a negation. -/
theorem Prints.operand {e : Expr} {s : String} (h : e.Prints s) (n : Nat) :
    ∃ t : Tree, t.Fits .filtered ∧ t.Means e ∧
      t.height = (if e.isNot then e.printedHeight + 1 else e.printedHeight) ∧
      Writes n (if e.isNot then "(" ++ s ++ ")" else s).toList t.lexemes := by
  by_cases hnot : e.isNot = true
  · obtain ⟨t, hfits, hmeans, hheight, hw⟩ := h.2 (n + 1)
    have htext : ("(" ++ s ++ ")").toList = '(' :: (s.toList ++ [')']) := by
      simp [String.toList_append]
    have hgroup := (hfits.loosen (Nat.zero_le _)).group n (n + 1 + s.toList.length)
    rw [if_pos hnot, if_pos hnot, htext]
    exact ⟨_, hgroup.loosen (by decide), .group hmeans, congrArg (· + 1) hheight, hw.parenthesized⟩
  · obtain ⟨t, hfits, hmeans, hheight, hw⟩ := h.2 n
    have htight := filtered_le_stratum (Bool.not_eq_true _ ▸ hnot)
    rw [if_neg hnot, if_neg hnot]
    exact ⟨t, hfits.loosen htight, hmeans, hheight, hw⟩

theorem Prints.filter {e : Expr} {s f : String} (h : e.Prints s) (hf : IsVerbatimName f) :
    (Expr.filter e f).Prints
      ((if e.isNot then "(" ++ s ++ ")" else s) ++ "[\"" ++ f ++ "\"]") := by
  refine ⟨by rw [toSource, h.1]; rfl, fun n => ?_⟩
  obtain ⟨t, hfits, hmeans, hheight, hw⟩ := h.operand n
  generalize (if e.isNot then "(" ++ s ++ ")" else s) = text at hw ⊢
  have hbracket := hw.append (by decide) (.bracketed hf.enclosed)
  have htext : (text ++ "[\"" ++ f ++ "\"]").toList =
      text.toList ++ '[' :: '"' :: (f.toList ++ ['"', ']']) := by
    simp [String.toList_append]
  rw [htext]
  let o := n + text.toList.length
  let fields : FieldList := ⟨⟨.quoted f, o + 1⟩, []⟩
  let closing := o + 1 + 2 + f.toList.length
  refine ⟨.filter t o fields closing, hfits.filter o fields closing, ?_, ?_, ?_⟩
  · have hmeans' : (Tree.filter t o fields closing).Means
        (fields.names.foldl (fun e n => .filter e n.name.value) e) := by
      refine .filter ?_ hmeans
      intro n hn
      rw [List.mem_singleton.1 hn, hf.value_eq]
      exact hf.1
    simpa [fields, FieldList.names, hf.value_eq] using hmeans'
  · rw [Tree.height, Nat.max_eq_left t.height_pos, hheight, printedHeight]
  · rw [String.ofList_toList] at hbracket
    exact hbracket

theorem Prints.capture {e : Expr} {s m : String} (h : e.Prints s) (hm : IsVerbatimName m) :
    (Expr.capture m e).Prints ("\"" ++ m ++ "\":(" ++ s ++ ")") := by
  refine ⟨by rw [toSource, h.1]; rfl, fun n => ?_⟩
  let o := n + 2 + m.toList.length
  obtain ⟨t, hfits, hmeans, hheight, hw⟩ := h.2 (o + 1 + 1)
  have hcolon : mark? ':' = some .colon := by decide
  have hname := Writes.quoted hm.enclosed (.mark hcolon hw.parenthesized)
  have htext : ("\"" ++ m ++ "\":(" ++ s ++ ")").toList =
      '"' :: (m.toList ++ '"' :: ':' :: '(' :: (s.toList ++ [')'])) := by
    simp [String.toList_append]
  have hgroup := (hfits.loosen (Nat.zero_le _)).group (o + 1) (o + 1 + 1 + s.toList.length)
  rw [htext]
  refine ⟨_, hgroup.capture ⟨.quoted m, n⟩ o, ?_, ?_, ?_⟩
  · have hmeans' : (Tree.capture ⟨.quoted m, n⟩ o
        (.group (o + 1) t (o + 1 + 1 + s.toList.length))).Means
          (.capture (Name.quoted m).value e) := by
      refine .capture ?_ (.group hmeans)
      rw [hm.value_eq]
      exact hm.1
    rwa [hm.value_eq] at hmeans'
  · rw [Tree.height, Tree.height, hheight, printedHeight]
  · rw [String.ofList_toList] at hname
    exact hname

/-- **Every expression with verbatim names has a text that means it.** -/
theorem exists_prints_of_verbatim {e : Expr} (he : e.IsVerbatim) : ∃ s, e.Prints s := by
  induction e with
  | type ty => exact ⟨_, prints_type ty⟩
  | any => exact ⟨_, prints_any⟩
  | not e ih =>
      obtain ⟨s, hs⟩ := ih he
      exact ⟨_, prints_not hs⟩
  | and l r ihl ihr =>
      obtain ⟨sl, hl⟩ := ihl he.1
      obtain ⟨sr, hr⟩ := ihr he.2
      exact ⟨_, hl.twoSided twoSided_and hr⟩
  | or l r ihl ihr =>
      obtain ⟨sl, hl⟩ := ihl he.1
      obtain ⟨sr, hr⟩ := ihr he.2
      exact ⟨_, hl.twoSided twoSided_or hr⟩
  | parent c a ihc iha =>
      obtain ⟨sc, hc⟩ := ihc he.1
      obtain ⟨sa, ha⟩ := iha he.2
      exact ⟨_, hc.twoSided twoSided_parent ha⟩
  | filter e f ih =>
      obtain ⟨s, hs⟩ := ih he.1
      exact ⟨_, hs.filter he.2⟩
  | capture m e ih =>
      obtain ⟨s, hs⟩ := ih he.1
      exact ⟨_, hs.capture he.2⟩
  | foreign s => exact he.elim

theorem IsPrintable.verbatim {e : Expr} (he : e.IsPrintable) : e.IsVerbatim := by
  induction e with
  | type _ => trivial
  | any => trivial
  | not e ih => exact ih he
  | and l r ihl ihr => exact ⟨ihl he.1, ihr he.2⟩
  | or l r ihl ihr => exact ⟨ihl he.1, ihr he.2⟩
  | parent c a ihc iha => exact ⟨ihc he.1, iha he.2⟩
  | filter e f ih => exact ⟨ih he.1, he.2.verbatim⟩
  | capture n e ih => exact ⟨ih he.1, he.2.verbatim⟩
  | foreign _ => exact he

/-- Every printable expression has a text that means it. -/
theorem exists_prints {e : Expr} (he : e.IsPrintable) : ∃ s, e.Prints s :=
  exists_prints_of_verbatim he.verbatim

end Expr

/-! ### The round trip -/

/-- The text of an expression spells a derivation of a tree that means the expression. -/
theorem Expr.Prints.derivation {e : Expr} {s : String} (h : e.Prints s) :
    ∃ d : Derivation .relation, Spells 0 s.toList d.tree.lexemes ∧ d.tree.Means e ∧
      d.tree.height = e.printedHeight := by
  obtain ⟨t, hfits, hmeans, hheight, hw⟩ := h.2 0
  have hrelation : t.Fits .relation := hfits.loosen (Nat.zero_le _)
  obtain ⟨d, rfl⟩ := hrelation
  exact ⟨d, hw.spells, hmeans, hheight⟩

/-- A text for a tree that is not too high is accepted, if no capture name is bound twice. -/
theorem parseExpr_of_writes {cs : List Char} {t : Tree} {e : Expr} (ht : t.Fits .relation)
    (hw : Writes 0 cs t.lexemes) (hd : t.height ≤ maxDepth) (he : t.Means e)
    (hn : e.captures.Nodup) : parseExpr (String.ofList cs) = .ok e := by
  obtain ⟨d, rfl⟩ := ht
  have hs : Spells 0 (String.ofList cs).toList d.tree.lexemes := by
    rw [String.toList_ofList]
    exact hw.spells
  exact parseExpr_of_derivation hs hd he hn

/-- The text of an expression is accepted exactly if the tree of the text is not too high,
and else is refused for that. -/
theorem parseExpr_of_prints {e : Expr} {s : String} (hs : e.Prints s) (hn : e.captures.Nodup) :
    (parseExpr s = .ok e ↔ e.printedHeight ≤ maxDepth) ∧
      ((∃ o, parseExpr s = .error ⟨.tooDeep, o, s⟩) ↔ maxDepth < e.printedHeight) := by
  obtain ⟨d, hspells, hmeans, hheight⟩ := hs.derivation
  rw [← hheight]
  by_cases hd : d.tree.height ≤ maxDepth
  · have hparse : parseExpr s = .ok e := parseExpr_of_derivation hspells hd hmeans hn
    simp [hparse, hd]
  · obtain ⟨o, ho⟩ := parseExpr_of_tooHigh ⟨d, rfl⟩ hspells (Nat.not_le.1 hd)
    simp [ho, Nat.not_le.1 hd]

/-- A text means at most one expression, whatever the depth. -/
theorem eq_of_spells {cs : List Char} {d d' : Derivation .relation}
    (hs : Spells 0 cs d.tree.lexemes) (hs' : Spells 0 cs d'.tree.lexemes) {e e' : Expr}
    (he : d.tree.Means e) (he' : d'.tree.Means e') : e = e' := by
  obtain rfl := Derivation.eq_of_lexemes (hs.unique hs')
  have hbare : d.tree.BareNamed := fun w o => hs.isNameChar_of_bare
  have hok := he.toExpr_eq hbare
  rw [he'.toExpr_eq hbare] at hok
  exact (Except.ok.inj hok).symm

/-- **The text of an expression means the expression.**  An expression whose names are plain has a
text, and the text has a syntax tree.  If the tree is not too high and no capture name is bound
twice, then reading the text gives the expression back.  No other such expression has this text. -/
theorem toSource_roundtrip {e : Expr} (he : e.IsPrintable) :
    ∃ s t, e.toSource = .ok s ∧ grammarTree s = .ok t ∧ t.height = e.printedHeight ∧
      (t.height ≤ maxDepth → e.captures.Nodup → parseExpr s = .ok e) ∧
      ∀ e' : Expr, e'.IsPrintable → e'.toSource = .ok s → e' = e := by
  obtain ⟨s, hs⟩ := Expr.exists_prints he
  obtain ⟨d, hspells, hmeans, hheight⟩ := hs.derivation
  refine ⟨s, d.tree, hs.1, grammarTree_eq_ok_iff.2 ⟨⟨d, rfl⟩, hspells⟩, hheight, ?_, ?_⟩
  · intro hdepth hcaptures
    exact parseExpr_of_derivation hspells hdepth hmeans hcaptures
  · intro e' he' hsource
    obtain ⟨s', hs'⟩ := Expr.exists_prints he'
    obtain rfl : s' = s := Except.ok.inj (hs'.1.symm.trans hsource)
    obtain ⟨d', hspells', hmeans', -⟩ := hs'.derivation
    exact eq_of_spells hspells' hspells hmeans' hmeans

/-- A filter on a negation, and a capture around an operator. -/
theorem toSource_roundtrip_filter_not :
    (Expr.filter (.not (.capture "a" (.parent .any (.type .book)))) "url").IsPrintable ∧
      ∃ s, (Expr.filter (.not (.capture "a" (.parent .any (.type .book)))) "url").toSource = .ok s ∧
        parseExpr s =
          .ok (.filter (.not (.capture "a" (.parent .any (.type .book)))) "url") := by
  have printable :
      (Expr.filter (.not (.capture "a" (.parent .any (.type .book)))) "url").IsPrintable := by
    simp [Expr.IsPrintable, IsPlainName]
  obtain ⟨s, t, hs, -, hheight, hparse, -⟩ := toSource_roundtrip printable
  exact ⟨printable, s, hs, hparse (by rw [hheight]; decide) (by decide)⟩

end Bibliograph.Selector
