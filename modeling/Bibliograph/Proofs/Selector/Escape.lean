import Bibliograph.Proofs.Selector.Spelling

/-!
# Escapes in names

The name that is meant by a text between quotes is found in two passes, first over the escaped
quotes and then over the escaped backslashes.  They come to the same as one reading from left to
right, on every text.  Where a text can stand between quotes, no pass changes the number of quotes,
so a text between quotes that means what stands between quotes already is that text.

Main definitions:

* `Selector.unescapeOnce`: the reading from left to right;
* `Selector.escape`: a backslash in front of every quote and every backslash;
* `Selector.Name.escaped`: the name with escapes that means a text;
* `Selector.Verbatim`, `Selector.IsVerbatimName`: the names without a quote in which every backslash
  is kept.

Main results:

* `Selector.unescape_eq_unescapeOnce`: **two passes come to the same as one reading**;
* `Selector.unescape_escape`: what was escaped is read back, so every text is meant by another one;
* `Selector.verbatim_iff`: the verbatim names are those that mean themselves between quotes;
* `Selector.count_quote_unescape`: a text between quotes means one with as many quotes;
* `Selector.verbatim_of_closing`: **a name that is read where it was written is verbatim**.
-/

set_option autoImplicit false

namespace Bibliograph.Selector

/-! ### The two passes -/

theorem replacePair_of_ne {a b c x : Char} (h : x ≠ a) (cs : List Char) :
    replacePair a b c (x :: cs) = x :: replacePair a b c cs := by
  cases cs with
  | nil => simp [replacePair]
  | cons y ys => simp [replacePair, h]

theorem replacePair_of_head_ne {a b c : Char} {cs : List Char} (h : ∀ x ∈ cs.head?, x ≠ b) :
    replacePair a b c (a :: cs) = a :: replacePair a b c cs := by
  cases cs with
  | nil => simp [replacePair]
  | cons y ys =>
      have hy : y ≠ b := h y (by simp)
      simp [replacePair, hy]

theorem replacePair_pair (a b c : Char) (cs : List Char) :
    replacePair a b c (a :: b :: cs) = c :: replacePair a b c cs := by
  simp [replacePair]

theorem length_replacePair_le (a b c : Char) (cs : List Char) :
    (replacePair a b c cs).length ≤ cs.length := by
  fun_induction replacePair a b c cs with
  | case1 x y rest _ ih =>
      simp only [List.length_cons]
      omega
  | case2 x y rest _ ih =>
      simp only [List.length_cons] at ih ⊢
      omega
  | case3 => exact Nat.le_refl _
  | case4 => exact Nat.le_refl _

theorem length_unescape_le (cs : List Char) : (unescape cs).length ≤ cs.length :=
  Nat.le_trans (length_replacePair_le ..) (length_replacePair_le ..)

/-! ### One reading -/

theorem unescape_of_ne {c : Char} (h : c ≠ '\\') (cs : List Char) :
    unescape (c :: cs) = c :: unescape cs := by
  rw [unescape, replacePair_of_ne h, replacePair_of_ne h, unescape]

theorem unescape_quote (cs : List Char) : unescape ('\\' :: '"' :: cs) = '"' :: unescape cs := by
  rw [unescape, replacePair_pair, replacePair_of_ne (by decide), unescape]

/-- The second of two backslashes takes a quote with it in the first pass.  Then the first one has no
partner in the second pass, so a backslash is left in front of the quote all the same. -/
theorem unescape_backslash (cs : List Char) :
    unescape ('\\' :: '\\' :: cs) = '\\' :: unescape cs := by
  by_cases h : ∀ c ∈ cs.head?, c ≠ '"'
  · rw [unescape, replacePair_of_head_ne (by simp), replacePair_of_head_ne h, replacePair_pair,
      unescape]
  · obtain ⟨ds, rfl⟩ : ∃ ds, cs = '"' :: ds := by
      cases cs with
      | nil => simp at h
      | cons c ds => exact ⟨ds, by simpa using h⟩
    rw [unescape_of_ne (c := '"') (by decide), unescape, replacePair_of_head_ne (by simp),
      replacePair_pair, replacePair_of_head_ne (by simp), replacePair_of_ne (by decide), unescape]

/-- In front of any other character a backslash stays. -/
theorem unescape_other {c : Char} (hq : c ≠ '"') (hb : c ≠ '\\') (cs : List Char) :
    unescape ('\\' :: c :: cs) = '\\' :: c :: unescape cs := by
  rw [unescape, replacePair_of_head_ne (by simpa using hq), replacePair_of_ne hb,
    replacePair_of_head_ne (by simpa using hb), replacePair_of_ne hb, unescape]

/-- The text that is meant, read from left to right: a backslash in front of a quote or a backslash
stands for it, and in front of any other character a backslash stays. -/
def unescapeOnce : List Char → List Char
  | '\\' :: c :: cs =>
    if c = '"' ∨ c = '\\' then c :: unescapeOnce cs else '\\' :: c :: unescapeOnce cs
  | c :: cs => c :: unescapeOnce cs
  | [] => []

/-- **Two passes come to the same as one reading.** -/
theorem unescape_eq_unescapeOnce (cs : List Char) : unescape cs = unescapeOnce cs := by
  fun_induction unescapeOnce cs with
  | case1 c cs hc ih =>
      rcases hc with rfl | rfl
      · rw [unescape_quote, ih]
      · rw [unescape_backslash, ih]
  | case2 c cs hc ih =>
      rw [not_or] at hc
      rw [unescape_other hc.1 hc.2, ih]
  | case3 c cs hlast ih =>
      by_cases hb : c = '\\'
      · obtain rfl : cs = [] := by
          cases cs with
          | nil => rfl
          | cons d ds => exact (hlast d ds hb rfl).elim
        rw [hb]
        rfl
      · rw [unescape_of_ne hb, ih]
  | case4 => rfl

/-- **A text between quotes means one with as many quotes.** -/
theorem count_quote_unescape {raw : List Char} (h : Enclosed raw) :
    (unescape raw).count '"' = raw.count '"' := by
  induction h with
  | nil => rfl
  | @plain c cs hq hb _ ih => rw [unescape_of_ne hb, List.count_cons, List.count_cons, ih]
  | @escaped c cs _ _ ih =>
      by_cases hq : c = '"'
      · subst hq
        rw [unescape_quote, List.count_cons, List.count_cons, List.count_cons, ih]
        simp
      · by_cases hb : c = '\\'
        · subst hb
          rw [unescape_backslash, List.count_cons, List.count_cons, List.count_cons, ih]
          simp
        · rw [unescape_other hq hb, List.count_cons, List.count_cons, List.count_cons,
            List.count_cons, ih]

/-! ### Escaping -/

/-- A backslash in front of every quote and every backslash. -/
def escape : List Char → List Char
  | [] => []
  | c :: cs => if c = '"' ∨ c = '\\' then '\\' :: c :: escape cs else c :: escape cs

theorem enclosed_escape (cs : List Char) : Enclosed (escape cs) := by
  induction cs with
  | nil => exact .nil
  | cons c cs ih =>
      rw [escape]
      split
      · rename_i hc
        have hn : c ≠ '\n' := by
          rintro rfl
          exact absurd hc (by decide)
        exact .escaped hn ih
      · rename_i hc
        rw [not_or] at hc
        exact .plain hc.1 hc.2 ih

/-- **What was escaped is read back.** -/
theorem unescape_escape (cs : List Char) : unescape (escape cs) = cs := by
  induction cs with
  | nil => rfl
  | cons c cs ih =>
      rw [escape]
      split
      · rename_i hc
        rcases hc with rfl | rfl
        · rw [unescape_quote, ih]
        · rw [unescape_backslash, ih]
      · rename_i hc
        rw [not_or] at hc
        rw [unescape_of_ne hc.2, ih]

/-- The name in quotes that means a text, with escapes where they are needed. -/
def Name.escaped (s : String) : Name :=
  .quoted (String.ofList (escape s.toList))

theorem Name.value_escaped (s : String) : (Name.escaped s).value = s := by
  rw [escaped, value, String.toList_ofList, unescape_escape, String.ofList_toList]

/-! ### Verbatim names -/

/-- The texts without a quote in which every backslash has a character behind it, which is neither a
backslash nor a line feed. -/
inductive Verbatim : List Char → Prop
  | nil : Verbatim []
  | plain {c : Char} {cs : List Char} (hq : c ≠ '"') (hb : c ≠ '\\') (h : Verbatim cs) :
      Verbatim (c :: cs)
  | kept {c : Char} {cs : List Char} (hq : c ≠ '"') (hb : c ≠ '\\') (hn : c ≠ '\n')
      (h : Verbatim cs) : Verbatim ('\\' :: c :: cs)

/-- **The verbatim names are those that mean themselves between quotes.** -/
theorem verbatim_iff {cs : List Char} : Verbatim cs ↔ Enclosed cs ∧ unescape cs = cs := by
  constructor
  · intro h
    induction h with
    | nil => exact ⟨.nil, rfl⟩
    | plain hq hb _ ih =>
        refine ⟨.plain hq hb ih.1, ?_⟩
        rw [unescape_of_ne hb, ih.2]
    | kept hq hb hn _ ih =>
        refine ⟨.escaped hn ih.1, ?_⟩
        rw [unescape_other hq hb, ih.2]
  · rintro ⟨henclosed, hsame⟩
    induction henclosed with
    | nil => exact .nil
    | plain hq hb _ ih =>
        rw [unescape_of_ne hb] at hsame
        exact .plain hq hb (ih (List.cons.inj hsame).2)
    | @escaped c cs hn _ ih =>
        have hq : c ≠ '"' := by
          rintro rfl
          rw [unescape_quote] at hsame
          exact absurd (List.cons.inj hsame).1 (by decide)
        have hb : c ≠ '\\' := by
          rintro rfl
          rw [unescape_backslash] at hsame
          have hlonger := congrArg List.length (List.cons.inj hsame).2
          have hshorter := length_unescape_le cs
          rw [List.length_cons] at hlonger
          omega
        rw [unescape_other hq hb] at hsame
        exact .kept hq hb hn (ih (List.cons.inj (List.cons.inj hsame).2).2)

/-- Two texts with as many quotes end at the same quote. -/
theorem eq_of_count_quote {raw cs rest rest' : List Char}
    (hcount : cs.count '"' = raw.count '"') (h : cs ++ '"' :: rest = raw ++ '"' :: rest') :
    cs = raw ∧ rest = rest' := by
  have shorter : ∀ {xs ys zs ws : List Char}, xs.count '"' = (xs ++ ys).count '"' →
      '"' :: zs = ys ++ '"' :: ws → ys = [] := by
    intro xs ys zs ws hcount h
    cases ys with
    | nil => rfl
    | cons y ys =>
        rw [← (List.cons.inj h).1, List.count_append, List.count_cons_self] at hcount
        omega
  rcases List.append_eq_append_iff.1 h with ⟨ys, rfl, hrest⟩ | ⟨ys, rfl, hrest⟩
  · obtain rfl := shorter hcount hrest
    exact ⟨(List.append_nil cs).symm, (List.cons.inj hrest).2⟩
  · obtain rfl := shorter hcount.symm hrest
    exact ⟨List.append_nil raw, (List.cons.inj hrest).2.symm⟩

/-- **A name that is read where it was written is verbatim**, and the reading goes on behind it. -/
theorem verbatim_of_closing {raw cs rest rest' : List Char} (hraw : Enclosed raw)
    (hmeans : unescape raw = cs) (h : cs ++ '"' :: rest = raw ++ '"' :: rest') :
    Verbatim cs ∧ rest = rest' := by
  have hcount : cs.count '"' = raw.count '"' := by
    rw [← hmeans]
    exact count_quote_unescape hraw
  obtain ⟨rfl, hrest⟩ := eq_of_count_quote hcount h
  exact ⟨verbatim_iff.2 ⟨hraw, hmeans⟩, hrest⟩

/-- The names that are written between quotes as they are and mean themselves there. -/
def IsVerbatimName (n : String) : Prop :=
  n ≠ "" ∧ Verbatim n.toList

theorem IsVerbatimName.enclosed {n : String} (h : IsVerbatimName n) : Enclosed n.toList :=
  (verbatim_iff.1 h.2).1

theorem IsVerbatimName.value_eq {n : String} (h : IsVerbatimName n) :
    (Name.quoted n).value = n := by
  rw [Name.value, (verbatim_iff.1 h.2).2, String.ofList_toList]

end Bibliograph.Selector
