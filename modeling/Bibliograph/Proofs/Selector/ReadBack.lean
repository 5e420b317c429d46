import Bibliograph.Proofs.Selector.Printing
import Mathlib.Data.List.Forall2

/-!
# Which names survive printing

Names are printed between quotes as they are, so what is read there may be another name, and the
quotes in it may end it too early.  Still nothing is read back by accident.  If the names of what is
read are those of the expression, then, going along the text from left to right, each of them is
read where it was written; and between quotes only a verbatim name means itself.

Main definitions:

* `Selector.Expr.words`: the names of an expression in the order of its text;
* `Selector.Carries`: a text spells lexemes with certain names;
* `Selector.ReadsBack`: the names of an expression are verbatim if its text carries them.

Main results:

* `Selector.readsBack`: **whatever follows the text of an expression, its names are verbatim if they
  are carried**;
* `Selector.toSource_reads_back_iff`: **which expressions survive printing**;
* `Selector.parseExpr_of_escaped`: every nonempty text is a name in some accepted texts.
-/

set_option autoImplicit false

namespace Bibliograph.Selector

/-! ### Names in the order of the text -/

/-- The names of an expression in the order of its text, and nothing in the place of a type. -/
def Expr.words : Expr → List (Option String)
  | type _ => [none]
  | any => []
  | not e => e.words
  | and l r => l.words ++ r.words
  | or l r => l.words ++ r.words
  | parent c a => c.words ++ a.words
  | filter e f => e.words ++ [some f]
  | capture n e => some n :: e.words
  | foreign _ => []

theorem Expr.words_filterAll (e : Expr) (fields : List String) :
    (Tree.filterAll e fields).words = e.words ++ fields.map some := by
  induction fields generalizing e with
  | nil => exact (List.append_nil _).symm
  | cons f fields ih =>
      have hfirst : (Tree.filterAll e (f :: fields)).words =
          (e.words ++ [some f]) ++ fields.map some := ih (.filter e f)
      rw [hfirst, List.append_assoc]
      rfl

/-- The name that a token is. -/
def Token.name? : Token → Option Name
  | name n => some n
  | _ => none

/-- The names among lexemes. -/
def writtenNames (ls : List Lexeme) : List Name :=
  ls.filterMap fun l => l.token.name?

@[simp] theorem writtenNames_nil : writtenNames [] = [] := rfl

@[simp] theorem writtenNames_append (ls ms : List Lexeme) :
    writtenNames (ls ++ ms) = writtenNames ls ++ writtenNames ms :=
  List.filterMap_append

@[simp] theorem writtenNames_name (n : Name) (o : Nat) (ls : List Lexeme) :
    writtenNames (⟨.name n, o⟩ :: ls) = n :: writtenNames ls := rfl

theorem writtenNames_of_none {t : Token} (h : t.name? = none) (o : Nat) (ls : List Lexeme) :
    writtenNames (⟨t, o⟩ :: ls) = writtenNames ls := by
  simp [writtenNames, h]

theorem writtenNames_fields (f : FieldList) :
    writtenNames f.lexemes = f.names.map NameAt.name := by
  obtain ⟨first, more⟩ := f
  simp only [FieldList.lexemes, FieldList.names, NameAt.lexeme, writtenNames_name, List.map_cons]
  induction more with
  | nil => rfl
  | cons m ms ih =>
      simp only [List.flatMap_cons, List.cons_append, List.nil_append, List.map_cons]
      rw [writtenNames_of_none rfl, writtenNames_name, List.cons_inj_right]
      simpa using ih

/-- The names that were written mean the names of an expression, and none is empty.  In the place of
a type any name may stand. -/
def Agree (ws : List (Option String)) (ns : List Name) : Prop :=
  List.Forall₂ (fun w n => ∀ v ∈ w, n.value = v ∧ v ≠ "") ws ns

theorem Agree.append {vs ws : List (Option String)} {ms ns : List Name} (h : Agree vs ms)
    (h' : Agree ws ns) : Agree (vs ++ ws) (ms ++ ns) :=
  List.rel_append h h'

/-- **The names of a tree mean the names of its expression.** -/
theorem Tree.Means.agree {t : Tree} {e : Expr} (h : t.Means e) :
    Agree e.words (writtenNames t.lexemes) := by
  induction h with
  | type _ => exact .cons (by simp) .nil
  | wildcard => exact .nil
  | group _ ih =>
      rw [lexemes, writtenNames_of_none rfl, writtenNames_append, writtenNames_of_none rfl]
      simpa using ih
  | capture hn _ ih => exact .cons (by simpa using hn) ih
  | @filter inner opening closing fields e hf _ ih =>
      have hnames : Agree (fields.names.map fun n => some n.name.value)
          (fields.names.map NameAt.name) := by
        rw [Agree, List.forall₂_map_left_iff, List.forall₂_map_right_iff, List.forall₂_same]
        intro n hn v hv
        obtain rfl : n.name.value = v := by simpa using hv
        exact ⟨rfl, hf n hn⟩
      rw [foldl_filter, Expr.words_filterAll, lexemes, writtenNames_append,
        writtenNames_of_none rfl, writtenNames_append, writtenNames_of_none rfl,
        writtenNames_fields, List.map_map, writtenNames_nil, List.append_nil]
      exact ih.append hnames
  | negation _ ih => exact ih
  | conjunction _ _ ihl ihr =>
      rw [lexemes, writtenNames_append, writtenNames_of_none rfl]
      exact ihl.append ihr
  | alternative _ _ ihl ihr =>
      rw [lexemes, writtenNames_append, writtenNames_of_none rfl]
      exact ihl.append ihr
  | parent _ _ ihc iha =>
      rw [lexemes, writtenNames_append, writtenNames_of_none rfl]
      exact ihc.append iha

/-! ### Going along a text -/

/-- The text spells lexemes whose names are the given ones. -/
def Carries (cs : List Char) (ws : List (Option String)) : Prop :=
  ∃ n ls, Spells n cs ls ∧ Agree ws (writtenNames ls)

section Carries

variable {c : Char} {cs : List Char} {ws : List (Option String)}

theorem Carries.of_skip (hc : isIgnorable c = true) (h : Carries (c :: cs) ws) :
    Carries cs ws := by
  obtain ⟨n, ls, hs, ha⟩ := h
  exact ⟨n + 1, ls, hs.of_skip hc, ha⟩

theorem Carries.of_mark {t : Token} (hc : mark? c = some t) (h : Carries (c :: cs) ws) :
    Carries cs ws := by
  obtain ⟨n, ls, hs, ha⟩ := h
  obtain ⟨ms, rfl, hms⟩ := hs.of_mark hc
  have hname : t.name? = none := by
    cases t with
    | name m => exact absurd rfl (ne_name_of_mark? hc m)
    | _ => rfl
  rw [writtenNames_of_none hname] at ha
  exact ⟨n + 1, ms, hms, ha⟩

theorem Carries.of_word {run rest : List Char} {w : Option String} (hc : isNameStart c = true)
    (hrun : ∀ d ∈ run, isNameChar d = true) (hrest : ∀ d ∈ rest.head?, isNameChar d = false)
    (h : Carries (c :: (run ++ rest)) (w :: ws)) : Carries rest ws := by
  obtain ⟨n, ls, hs, ha⟩ := h
  obtain ⟨ms, rfl, hms⟩ := hs.of_bare hc hrun hrest
  cases ha with
  | cons _ ha => exact ⟨_, ms, hms, ha⟩

/-- A name that is carried where it was written is verbatim. -/
theorem Carries.of_name {f : String} (h : Carries ('"' :: (f.toList ++ '"' :: cs)) (some f :: ws)) :
    IsVerbatimName f ∧ Carries cs ws := by
  obtain ⟨n, ls, hs, ha⟩ := h
  obtain ⟨raw, rest, ms, htext, hraw, rfl, hms⟩ := hs.of_quote
  cases ha with
  | cons hf ha =>
      obtain ⟨hvalue, hne⟩ := hf f rfl
      have hmeans : unescape raw = f.toList := by
        rw [← hvalue, Name.value, String.toList_ofList, String.toList_ofList]
      obtain ⟨hverbatim, rfl⟩ := verbatim_of_closing hraw hmeans htext
      exact ⟨⟨hne, hverbatim⟩, _, ms, hms, ha⟩

end Carries

/-- If a text begins with `cs` and carries the names of the expression first, then these are
verbatim, and what follows carries the other names. -/
def ReadsBack (e : Expr) (cs : List Char) : Prop :=
  ∀ (rest : List Char) (ws : List (Option String)), (∀ c ∈ rest.head?, isNameChar c = false) →
    Carries (cs ++ rest) (e.words ++ ws) → e.IsVerbatim ∧ Carries rest ws

theorem ReadsBack.parenthesized {e : Expr} {cs rest : List Char} {ws : List (Option String)}
    (h : ReadsBack e cs) (hc : Carries ('(' :: (cs ++ ')' :: rest)) (e.words ++ ws)) :
    e.IsVerbatim ∧ Carries rest ws := by
  obtain ⟨he, hrest⟩ := h (')' :: rest) ws (head?_not_nameChar rfl _) (hc.of_mark rfl)
  exact ⟨he, hrest.of_mark rfl⟩

/-- What a filter is written after. -/
theorem ReadsBack.operand {e : Expr} {s : String} (h : ReadsBack e s.toList) :
    ReadsBack e (if e.isNot then "(" ++ s ++ ")" else s).toList := by
  intro rest ws hrest hc
  split at hc
  · refine h.parenthesized ?_
    simpa [String.toList_append] using hc
  · exact h rest ws hrest hc

/-- The two sides of an operator in parentheses. -/
theorem ReadsBack.twoSided {l r : Expr} {sl sr rest : List Char} {c : Char} {t : Token}
    {ws : List (Option String)} (hl : ReadsBack l sl) (hr : ReadsBack r sr) (hc : mark? c = some t)
    (h : Carries ('(' :: (sl ++ ' ' :: c :: ' ' :: (sr ++ ')' :: rest)))
      (l.words ++ r.words ++ ws)) :
    (l.IsVerbatim ∧ r.IsVerbatim) ∧ Carries rest ws := by
  have hblank : isIgnorable ' ' = true := by decide
  rw [List.append_assoc] at h
  obtain ⟨hlv, h⟩ := hl _ _ (head?_not_nameChar rfl _) (h.of_mark rfl)
  obtain ⟨hrv, h⟩ := hr _ _ (head?_not_nameChar rfl _) (((h.of_skip hblank).of_mark hc).of_skip hblank)
  exact ⟨⟨hlv, hrv⟩, h.of_mark rfl⟩

/-- **Whatever follows the text of an expression, its names are verbatim if they are carried.** -/
theorem readsBack {e : Expr} {s : String} (hs : e.toSource = .ok s) : ReadsBack e s.toList := by
  induction e generalizing s with
  | type ty =>
      cases hs
      intro rest ws hrest h
      obtain ⟨c, run, hname, hc, hrun, -⟩ := exists_name_eq_cons ty
      rw [hname] at h
      exact ⟨trivial, h.of_word hc hrun hrest⟩
  | any =>
      cases hs
      intro rest ws _ h
      exact ⟨trivial, h.of_mark rfl⟩
  | not e ih =>
      rw [Expr.toSource, bind_eq_ok_iff] at hs
      obtain ⟨se, he, hs⟩ := hs
      cases hs
      intro rest ws hrest h
      rw [String.toList_append] at h
      exact ih he rest ws hrest (h.of_mark rfl)
  | and l r ihl ihr =>
      rw [Expr.toSource, bind_bind_eq_ok_iff] at hs
      obtain ⟨sl, sr, hl, hr, rfl⟩ := hs
      intro rest ws _ h
      refine (ihl hl).twoSided (c := '&') (ihr hr) rfl ?_
      simpa [String.toList_append, Expr.words] using h
  | or l r ihl ihr =>
      rw [Expr.toSource, bind_bind_eq_ok_iff] at hs
      obtain ⟨sl, sr, hl, hr, rfl⟩ := hs
      intro rest ws _ h
      refine (ihl hl).twoSided (c := '|') (ihr hr) rfl ?_
      simpa [String.toList_append, Expr.words] using h
  | parent c a ihc iha =>
      rw [Expr.toSource, bind_bind_eq_ok_iff] at hs
      obtain ⟨sc, sa, hc, ha, rfl⟩ := hs
      intro rest ws _ h
      refine (ihc hc).twoSided (c := '>') (iha ha) rfl ?_
      simpa [String.toList_append, Expr.words] using h
  | filter e f ih =>
      rw [Expr.toSource, bind_eq_ok_iff] at hs
      obtain ⟨se, he, hs⟩ := hs
      cases hs
      intro rest ws _ h
      have hbracket : Carries ((if e.isNot then "(" ++ se ++ ")" else se).toList ++
          '[' :: '"' :: (f.toList ++ '"' :: ']' :: rest)) (e.words ++ some f :: ws) := by
        simpa [String.toList_append, Expr.words] using h
      obtain ⟨hev, h⟩ := (ih he).operand _ _ (head?_not_nameChar rfl _) hbracket
      obtain ⟨hf, h⟩ := (h.of_mark rfl).of_name
      exact ⟨⟨hev, hf⟩, h.of_mark rfl⟩
  | capture n e ih =>
      rw [Expr.toSource, bind_eq_ok_iff] at hs
      obtain ⟨se, he, hs⟩ := hs
      cases hs
      intro rest ws _ h
      have hname : Carries ('"' :: (n.toList ++ '"' :: ':' :: '(' :: (se.toList ++ ')' :: rest)))
          (some n :: (e.words ++ ws)) := by
        simpa [String.toList_append, Expr.words] using h
      obtain ⟨hn, h⟩ := hname.of_name
      obtain ⟨hev, h⟩ := (ih he).parenthesized (h.of_mark rfl)
      exact ⟨⟨hev, hn⟩, h⟩
  | foreign s => cases hs

/-! ### Printing and reading -/

/-- **Which expressions survive printing.**  The text of an expression is read back as the expression
exactly if all its names are verbatim, the tree of the text is not too high and no capture name is
bound twice. -/
theorem toSource_reads_back_iff (e : Expr) :
    (∃ s, e.toSource = .ok s ∧ parseExpr s = .ok e) ↔
      e.IsVerbatim ∧ e.printedHeight ≤ maxDepth ∧ e.captures.Nodup := by
  constructor
  · rintro ⟨s, hs, hparse⟩
    obtain ⟨t, ht, hmeans, hn⟩ := exists_tree_of_parseExpr hparse
    obtain ⟨-, hspells, -⟩ := parseTree_eq_ok_iff.1 ht
    have hcarries : Carries (s.toList ++ []) (e.words ++ []) := by
      rw [List.append_nil, List.append_nil]
      exact ⟨0, t.lexemes, hspells, hmeans.agree⟩
    obtain ⟨hverbatim, -⟩ := readsBack hs [] [] (by simp) hcarries
    obtain ⟨s', hprints⟩ := Expr.exists_prints_of_verbatim hverbatim
    obtain rfl : s' = s := Except.ok.inj (hprints.1.symm.trans hs)
    exact ⟨hverbatim, (parseExpr_of_prints hprints hn).1.1 hparse, hn⟩
  · rintro ⟨hverbatim, hdepth, hn⟩
    obtain ⟨s, hprints⟩ := Expr.exists_prints_of_verbatim hverbatim
    exact ⟨s, hprints.1, (parseExpr_of_prints hprints hn).1.2 hdepth⟩

/-! ### Names of all kinds -/

section Quoted

variable {raw : List Char} (hraw : Enclosed raw)
  (hne : (Name.quoted (String.ofList raw)).value ≠ "")
include hraw hne

theorem parseExpr_capture_star :
    parseExpr (String.ofList ('"' :: (raw ++ ['"', ':', '*']))) =
      .ok (.capture (Name.quoted (String.ofList raw)).value .any) := by
  let o := 0 + 2 + raw.length
  let t : Tree := .capture ⟨.quoted (String.ofList raw), 0⟩ o (.wildcard (o + 1))
  have hfits : t.Fits .captured := (Tree.Fits.wildcard (o + 1)).capture _ o
  have hwrites : Writes 0 ('"' :: (raw ++ ['"', ':', '*'])) t.lexemes :=
    .quoted hraw (.mark rfl (.mark rfl (.nil _)))
  have hheight : t.height = 2 := rfl
  exact parseExpr_of_writes (hfits.loosen (by decide)) hwrites (by rw [hheight]; decide)
    (.capture hne .wildcard) (by simp)

theorem parseExpr_star_filter :
    parseExpr (String.ofList ('*' :: '[' :: '"' :: (raw ++ ['"', ']']))) =
      .ok (.filter .any (Name.quoted (String.ofList raw)).value) := by
  let fields : FieldList := ⟨⟨.quoted (String.ofList raw), 0 + 1 + 1⟩, []⟩
  let closing := 0 + 1 + 1 + 2 + raw.length
  have hfits : (Tree.filter (.wildcard 0) (0 + 1) fields closing).Fits .filtered :=
    ((Tree.Fits.wildcard 0).loosen (by decide)).filter _ fields closing
  have hmeans : (Tree.filter (.wildcard 0) (0 + 1) fields closing).Means
      (.filter .any (Name.quoted (String.ofList raw)).value) := by
    have hfields : ∀ m ∈ fields.names, m.name.value ≠ "" := by
      intro m hm
      rw [List.mem_singleton.1 hm]
      exact hne
    exact .filter hfields .wildcard
  have hwrites : Writes 0 ('*' :: '[' :: '"' :: (raw ++ ['"', ']']))
      (Tree.filter (.wildcard 0) (0 + 1) fields closing).lexemes :=
    .mark rfl (.bracketed hraw)
  have hheight : (Tree.filter (.wildcard 0) (0 + 1) fields closing).height = 2 := rfl
  exact parseExpr_of_writes (hfits.loosen (by decide)) hwrites (by rw [hheight]; decide) hmeans
    (by simp)

end Quoted

/-- **Every nonempty text is a name in some accepted texts**, of a capture and of a field. -/
theorem parseExpr_of_escaped {n : String} (hn : n ≠ "") :
    parseExpr ((Name.escaped n).source ++ ":*") = .ok (.capture n .any) ∧
      parseExpr ("*[" ++ (Name.escaped n).source ++ "]") = .ok (.filter .any n) := by
  have hraw : Enclosed (escape n.toList) := enclosed_escape n.toList
  have hvalue : (Name.quoted (String.ofList (escape n.toList))).value = n := Name.value_escaped n
  have hne : (Name.quoted (String.ofList (escape n.toList))).value ≠ "" := by
    rw [hvalue]
    exact hn
  have hcapture : (Name.escaped n).source ++ ":*" =
      String.ofList ('"' :: (escape n.toList ++ ['"', ':', '*'])) := by
    apply String.toList_injective
    simp [Name.escaped, Name.source, String.toList_append]
  have hfilter : "*[" ++ (Name.escaped n).source ++ "]" =
      String.ofList ('*' :: '[' :: '"' :: (escape n.toList ++ ['"', ']'])) := by
    apply String.toList_injective
    simp [Name.escaped, Name.source, String.toList_append]
  rw [hcapture, hfilter, parseExpr_capture_star hraw hne, parseExpr_star_filter hraw hne, hvalue]
  exact ⟨rfl, rfl⟩

/-- A quote in the name of a capture ends it too early when it is read back. -/
theorem capture_with_quote_not_read_back :
    parseExpr "\"a\\\"b\":*" = .ok (.capture "a\"b" .any) ∧
      (Expr.capture "a\"b" .any).toSource = .ok "\"a\"b\":(*)" ∧
      parseExpr "\"a\"b\":(*)" =
        .error ⟨.unexpectedToken "b", 3, "\"a\"b\":(*)"⟩ := by
  have hraw : Enclosed ['a', '\\', '"', 'b'] :=
    .plain (by decide) (by decide) (.escaped (by decide) (.plain (by decide) (by decide) .nil))
  have hvalue : (Name.quoted (String.ofList ['a', '\\', '"', 'b'])).value = "a\"b" := by decide
  have hsource : String.ofList ('"' :: (['a', '\\', '"', 'b'] ++ ['"', ':', '*'])) =
      "\"a\\\"b\":*" := by
    decide
  have hparse := parseExpr_capture_star hraw (by rw [hvalue]; decide)
  rw [hvalue, hsource] at hparse
  have hprinted : (Expr.capture "a\"b" .any).toSource = .ok "\"a\"b\":(*)" := rfl
  refine ⟨hparse, hprinted, parseExpr_of_parseTree_error ?_⟩
  have hmatched : unmatched? "\"a\"b\":(*)" = none := by decide
  have hlex : lex "\"a\"b\":(*)" =
      ⟨[⟨.name (.quoted "a"), 0⟩, ⟨.name (.bare "b"), 3⟩], some (4, '"')⟩ := by
    have htext : "\"a\"b\":(*)".toList =
        '"' :: (['a'] ++ '"' :: 'b' :: ([] ++ ['"', ':', '(', '*', ')'])) := by
      decide
    have ha : Enclosed ['a'] := .plain (by decide) (by decide) .nil
    have hb : isNameStart 'b' = true := by decide
    have hquote := head?_not_nameChar (c := '"') rfl [':', '(', '*', ')']
    have hopen : closeQuote [':', '(', '*', ')'] = none := by decide
    rw [lex, htext, lexFrom_quoted ha, lexFrom_bare hb (by simp) hquote, lexFrom_unclosed hopen]
    rfl
  have hgrammar : grammarTree "\"a\"b\":(*)" =
      .error ⟨.unexpectedToken "b", 3, "\"a\"b\":(*)"⟩ := by
    rw [grammarTree, hlex]
    rfl
  rw [parseTree, if_neg (by decide), hmatched, hgrammar]
  rfl

end Bibliograph.Selector
