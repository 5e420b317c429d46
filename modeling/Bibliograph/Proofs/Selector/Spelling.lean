import Bibliograph.Proofs.Text.Parts
import Bibliograph.Selector.Parse

/-!
# How lexemes are spelled

A text is spelled as a sequence of lexemes if it is made of them and of ignorable characters.  This
module says so without the reader: each rule adds one ignorable character or the spelling of one
lexeme in front.  A bare name takes as many characters as it can, and a quoted name ends at the
first quote that no backslash takes with it.

Main definitions:

* `Selector.Enclosed`: the texts that can stand between the quotes of a name;
* `Selector.Spells`: a text, starting at an offset, spells a sequence of lexemes;
* `Selector.unmatchedLexeme`: the matching of parentheses on lexemes.

Main results:

* `Selector.closeQuote_eq_some_iff`: the reader of quoted names finds exactly the enclosed texts;
* `Selector.spells_iff`: **the reader finds the lexemes that the text spells**, and stops nowhere;
* `Selector.Spells.unique`: a text spells at most one sequence of lexemes;
* `Selector.Spells.unmatchedFrom_eq`: parentheses are matched on the lexemes as on the text;
* `Selector.unmatchedLexeme_tree`: in the lexemes of a tree every parenthesis has its partner;
* `Selector.readable_of_spells`: a text that spells a tree passes the checks before the reading;
* `EntryType.ofText_eq_ok_iff`: a bare name is the name of a type up to the case of its letters.
-/

set_option autoImplicit false

namespace Bibliograph

namespace Selector

/-! ### Characters -/

/-- The code points of a range of characters. -/
theorem toNat_of_between {c a b : Char} (ha : a.val ≤ c.val) (hb : c.val ≤ b.val) :
    a.toNat ≤ c.toNat ∧ c.toNat ≤ b.toNat :=
  ⟨UInt32.le_iff_toNat_le.1 ha, UInt32.le_iff_toNat_le.1 hb⟩

/-- The code points of the characters of bare names. -/
theorem toNat_of_isNameChar {c : Char} (h : isNameChar c = true) :
    c.toNat = 0x2D ∨ (0x30 ≤ c.toNat ∧ c.toNat ≤ 0x39) ∨ (0x41 ≤ c.toNat ∧ c.toNat ≤ 0x5A) ∨
      c.toNat = 0x5F ∨ (0x61 ≤ c.toNat ∧ c.toNat ≤ 0x7A) := by
  have hsplit : isNameChar c =
      ((((c.isUpper || c.isLower) || c.isDigit) || c == '_') || c == '-') := rfl
  rw [hsplit] at h
  simp only [Bool.or_eq_true, beq_iff_eq] at h
  rcases h with (((h | h) | h) | rfl) | rfl
  · obtain ⟨ha, hz⟩ : c.val ≥ 'A'.val ∧ c.val ≤ 'Z'.val := of_decide_eq_true h
    have hupper := toNat_of_between ha hz
    exact Or.inr (Or.inr (Or.inl hupper))
  · have hand : (decide (c.val ≥ 'a'.val) && decide (c.val ≤ 'z'.val)) = true := h
    rw [Bool.and_eq_true] at hand
    have hlower := toNat_of_between (of_decide_eq_true hand.1) (of_decide_eq_true hand.2)
    exact Or.inr (Or.inr (Or.inr (Or.inr hlower)))
  · have hand : (decide (c.val ≥ '0'.val) && decide (c.val ≤ '9'.val)) = true := h
    rw [Bool.and_eq_true] at hand
    have hdigit := toNat_of_between (of_decide_eq_true hand.1) (of_decide_eq_true hand.2)
    exact Or.inr (Or.inl hdigit)
  · decide
  · decide

theorem isNameChar_of_isNameStart {c : Char} (h : isNameStart c = true) : isNameChar c = true := by
  simp only [isNameStart, Bool.or_eq_true] at h
  simp only [isNameChar, Char.isAlphanum, Bool.or_eq_true]
  rcases h with h | h
  · exact Or.inl (Or.inl (Or.inl h))
  · exact Or.inl (Or.inr h)

theorem isBlank_of_isNameChar {c : Char} (h : isNameChar c = true) : Text.isBlank c = false := by
  have := toNat_of_isNameChar h
  simp only [Text.isBlank, Bool.or_eq_false_iff, Bool.and_eq_false_iff, decide_eq_false_iff_not,
    beq_eq_false_iff_ne]
  omega

/-- The marks with their tokens. -/
def marks : List (Char × Token) :=
  [('!', .bang), ('*', .star), (':', .colon), ('[', .openBracket), (']', .closeBracket),
    ('(', .openParen), (')', .closeParen), ('>', .greater), ('|', .bar), ('&', .ampersand),
    (',', .comma)]

theorem of_if_eq_some {p : Prop} [Decidable p] {t u : Token} {x : Option Token}
    (h : (if p then some t else x) = some u) : p ∧ t = u ∨ x = some u := by
  by_cases hp : p
  · rw [if_pos hp] at h
    exact Or.inl ⟨hp, Option.some.inj h⟩
  · rw [if_neg hp] at h
    exact Or.inr h

theorem mem_marks_of_mark? {c : Char} {t : Token} (h : mark? c = some t) : (c, t) ∈ marks := by
  unfold mark? at h
  iterate 11
    rcases of_if_eq_some h with ⟨rfl, rfl⟩ | h
    · simp [marks]
  cases h

theorem isIgnorable_of_mark? {c : Char} {t : Token} (h : mark? c = some t) :
    isIgnorable c = false := by
  have apart : ∀ p ∈ marks, isIgnorable p.1 = false := by decide
  exact apart _ (mem_marks_of_mark? h)

theorem isBlank_of_mark? {c : Char} {t : Token} (h : mark? c = some t) :
    Text.isBlank c = false := by
  have apart : ∀ p ∈ marks, Text.isBlank p.1 = false := by decide
  exact apart (c, t) (mem_marks_of_mark? h)

theorem ne_name_of_mark? {c : Char} {t : Token} (h : mark? c = some t) (n : Name) :
    t ≠ .name n := by
  rintro rfl
  simpa [marks] using mem_marks_of_mark? h

theorem mark?_of_isNameChar {c : Char} (h : isNameChar c = true) : mark? c = none := by
  have apart : ∀ p ∈ marks, isNameChar p.1 = false := by decide
  cases ht : mark? c with
  | none => rfl
  | some t => exact absurd h (by simp [apart _ (mem_marks_of_mark? ht)])

/-- The ignorable characters. -/
theorem mem_of_isIgnorable {c : Char} (h : isIgnorable c = true) :
    c ∈ [' ', '\t', '\x0c', '\r', '\n'] := by
  simpa [isIgnorable, or_assoc] using h

theorem isIgnorable_of_isNameChar {c : Char} (h : isNameChar c = true) :
    isIgnorable c = false := by
  have apart : [' ', '\t', '\x0c', '\r', '\n'].all (fun d => !isNameChar d) = true := by decide
  cases hi : isIgnorable c with
  | false => rfl
  | true =>
      have := List.all_eq_true.1 apart c (mem_of_isIgnorable hi)
      simp [h] at this

theorem ne_quote_of_isNameChar {c : Char} (h : isNameChar c = true) : c ≠ '"' := by
  rintro rfl
  exact absurd h (by decide)

/-! ### Texts between quotes -/

/-- The texts that can stand between the quotes of a name: a backslash takes the next character with
it, which must not be a line feed, and only so can a quote or a backslash stand there. -/
inductive Enclosed : List Char → Prop
  | nil : Enclosed []
  | plain {c : Char} {cs : List Char} (hq : c ≠ '"') (hb : c ≠ '\\') (h : Enclosed cs) :
      Enclosed (c :: cs)
  | escaped {c : Char} {cs : List Char} (hn : c ≠ '\n') (h : Enclosed cs) :
      Enclosed ('\\' :: c :: cs)

theorem closeQuote_of_enclosed {raw : List Char} (h : Enclosed raw) (rest : List Char) :
    closeQuote (raw ++ '"' :: rest) = some (raw, rest) := by
  induction h with
  | nil => rw [List.nil_append, closeQuote.eq_def]; simp
  | plain hq hb _ ih => rw [List.cons_append, closeQuote.eq_def]; simp [hq, hb, ih]
  | escaped hn _ ih => simp [closeQuote, hn, ih]

theorem enclosed_of_closeQuote {cs raw rest : List Char} (h : closeQuote cs = some (raw, rest)) :
    Enclosed raw := by
  fun_induction closeQuote cs generalizing raw rest with
  | case1 => simp at h
  | case2 => simp at h; rw [h.1]; exact Enclosed.nil
  | case3 => simp at h
  | case4 => simp at h
  | case5 d rest' hn _ ih =>
      obtain ⟨⟨r, t⟩, hr, hp⟩ := Option.map_eq_some_iff.1 h
      simp only [Prod.mk.injEq] at hp
      rw [← hp.1]
      exact Enclosed.escaped hn (ih hr)
  | case6 c rest' hq hb ih =>
      obtain ⟨⟨r, t⟩, hr, hp⟩ := Option.map_eq_some_iff.1 h
      simp only [Prod.mk.injEq] at hp
      rw [← hp.1]
      exact Enclosed.plain hq hb (ih hr)

/-- The reader of quoted names finds exactly the enclosed texts. -/
theorem closeQuote_eq_some_iff {cs raw rest : List Char} :
    closeQuote cs = some (raw, rest) ↔ cs = raw ++ '"' :: rest ∧ Enclosed raw := by
  constructor
  · intro h
    exact ⟨closeQuote_append h, enclosed_of_closeQuote h⟩
  · rintro ⟨rfl, h⟩
    exact closeQuote_of_enclosed h rest

/-! ### Spellings -/

/-- A text that starts at an offset spells a sequence of lexemes.  A bare name is as long as it can
be, so what follows it does not go on with it. -/
inductive Spells : Nat → List Char → List Lexeme → Prop
  | done (n : Nat) : Spells n [] []
  | skip {n : Nat} {c : Char} {cs : List Char} {ls : List Lexeme} (hc : isIgnorable c = true)
      (h : Spells (n + 1) cs ls) : Spells n (c :: cs) ls
  | mark {n : Nat} {c : Char} {t : Token} {cs : List Char} {ls : List Lexeme}
      (hc : mark? c = some t) (h : Spells (n + 1) cs ls) : Spells n (c :: cs) (⟨t, n⟩ :: ls)
  | bare {n : Nat} {c : Char} {run rest : List Char} {ls : List Lexeme}
      (hc : isNameStart c = true) (hrun : ∀ d ∈ run, isNameChar d = true)
      (hrest : ∀ d ∈ rest.head?, isNameChar d = false)
      (h : Spells (n + 1 + run.length) rest ls) :
      Spells n (c :: (run ++ rest)) (⟨.name (.bare (String.ofList (c :: run))), n⟩ :: ls)
  | quoted {n : Nat} {raw rest : List Char} {ls : List Lexeme} (hraw : Enclosed raw)
      (h : Spells (n + 2 + raw.length) rest ls) :
      Spells n ('"' :: (raw ++ '"' :: rest))
        (⟨.name (.quoted (String.ofList raw)), n⟩ :: ls)

/-- A character that does not go on with a name ends every name in front of it. -/
theorem head?_not_nameChar {c : Char} (hc : isNameChar c = false) (cs : List Char) :
    ∀ d ∈ (c :: cs).head?, isNameChar d = false := by
  intro d hd
  obtain rfl : c = d := Option.some.inj hd
  exact hc

/-- A run of name characters up to one that is none is what the reader takes. -/
theorem takeWhile_run {run rest : List Char} (hrun : ∀ d ∈ run, isNameChar d = true)
    (hrest : ∀ d ∈ rest.head?, isNameChar d = false) :
    (run ++ rest).takeWhile isNameChar = run ∧ (run ++ rest).dropWhile isNameChar = rest := by
  have hstop : rest.takeWhile isNameChar = [] ∧ rest.dropWhile isNameChar = rest := by
    cases rest with
    | nil => exact ⟨rfl, rfl⟩
    | cons d ds =>
        have hd : isNameChar d = false := hrest d (by simp)
        simp [hd]
  rw [List.takeWhile_append_of_pos hrun, List.dropWhile_append_of_pos hrun, hstop.1, hstop.2]
  exact ⟨List.append_nil run, rfl⟩

/-- What the reader takes for a bare name is a run of name characters, and the run is over. -/
theorem dropWhile_run (cs : List Char) :
    (∀ d ∈ cs.takeWhile isNameChar, isNameChar d = true) ∧
      ∀ d ∈ (cs.dropWhile isNameChar).head?, isNameChar d = false := by
  refine ⟨List.all_eq_true.1 List.all_takeWhile, fun d hd => ?_⟩
  have hhead := List.head?_dropWhile_not isNameChar cs
  rw [Option.mem_def.1 hd] at hhead
  simpa using hhead

theorem lexFrom_bare {c : Char} {run rest : List Char} (hc : isNameStart c = true)
    (hrun : ∀ d ∈ run, isNameChar d = true) (hrest : ∀ d ∈ rest.head?, isNameChar d = false)
    (n : Nat) :
    lexFrom n (c :: (run ++ rest)) =
      (lexFrom (n + 1 + run.length) rest).cons ⟨.name (.bare (String.ofList (c :: run))), n⟩ := by
  have hname := isNameChar_of_isNameStart hc
  obtain ⟨htake, hdrop⟩ := takeWhile_run hrun hrest
  rw [lexFrom, if_neg (by simp [isIgnorable_of_isNameChar hname]), mark?_of_isNameChar hname]
  simp only [hc, if_true, htake, hdrop]

theorem lexFrom_quoted {raw : List Char} (hraw : Enclosed raw) (n : Nat) (rest : List Char) :
    lexFrom n ('"' :: (raw ++ '"' :: rest)) =
      (lexFrom (n + 2 + raw.length) rest).cons ⟨.name (.quoted (String.ofList raw)), n⟩ := by
  rw [lexFrom, if_neg (by decide)]
  have hmark : mark? '"' = none := by decide
  have hstart : isNameStart '"' = false := by decide
  simp only [hmark, hstart, Bool.false_eq_true, if_false, if_true]
  split
  · rename_i r t hclose
    rw [closeQuote_of_enclosed hraw] at hclose
    cases hclose
    rfl
  · rename_i hclose
    rw [closeQuote_of_enclosed hraw] at hclose
    cases hclose

/-- Where a quote is not closed the reader stops. -/
theorem lexFrom_unclosed {cs : List Char} (h : closeQuote cs = none) (n : Nat) :
    lexFrom n ('"' :: cs) = ⟨[], some (n, '"')⟩ := by
  rw [lexFrom, if_neg (by decide)]
  have hmark : mark? '"' = none := by decide
  have hstart : isNameStart '"' = false := by decide
  simp only [hmark, hstart, Bool.false_eq_true, if_false, if_true]
  split
  · rename_i hclose
    rw [h] at hclose
    cases hclose
  · rfl

theorem lexFrom_of_spells {n : Nat} {cs : List Char} {ls : List Lexeme} (h : Spells n cs ls) :
    lexFrom n cs = ⟨ls, none⟩ := by
  induction h with
  | done n => exact lexFrom_nil n
  | skip hc _ ih => rw [lexFrom_ignorable hc, ih]
  | mark hc _ ih => rw [lexFrom_mark (isIgnorable_of_mark? hc) hc, ih]; rfl
  | bare hc hrun hrest _ ih => rw [lexFrom_bare hc hrun hrest, ih]; rfl
  | quoted hraw _ ih => rw [lexFrom_quoted hraw, ih]; rfl

theorem Lexed.cons_eq_iff {l : Lexeme} {r : Lexed} {ls : List Lexeme}
    {stop : Option (Nat × Char)} :
    r.cons l = ⟨ls, stop⟩ ↔ ∃ ms, ls = l :: ms ∧ r = ⟨ms, stop⟩ := by
  obtain ⟨ms, stop'⟩ := r
  simp only [Lexed.cons, Lexed.mk.injEq]
  constructor
  · rintro ⟨rfl, rfl⟩
    exact ⟨ms, rfl, rfl, rfl⟩
  · rintro ⟨_, rfl, rfl, rfl⟩
    exact ⟨rfl, rfl⟩

theorem spells_of_lexFrom {n : Nat} {cs : List Char} {ls : List Lexeme}
    (h : lexFrom n cs = ⟨ls, none⟩) : Spells n cs ls := by
  fun_induction lexFrom n cs generalizing ls with
  | case1 n =>
      cases h
      exact Spells.done n
  | case2 n c cs hc ih => exact Spells.skip hc (ih h)
  | case3 n c cs hi t hc ih =>
      obtain ⟨ms, rfl, hr⟩ := Lexed.cons_eq_iff.1 h
      exact Spells.mark hc (ih hr)
  | case4 n c cs hi hmark hc run =>
      rename_i ih
      obtain ⟨ms, rfl, hr⟩ := Lexed.cons_eq_iff.1 h
      obtain ⟨hrun, hrest⟩ := dropWhile_run cs
      have hsplit : cs = cs.takeWhile isNameChar ++ cs.dropWhile isNameChar :=
        (List.takeWhile_append_dropWhile).symm
      rw [hsplit]
      exact Spells.bare hc hrun hrest (ih hr)
  | case5 n cs raw rest hclose hi hmark hc ih =>
      obtain ⟨ms, rfl, hr⟩ := Lexed.cons_eq_iff.1 h
      obtain ⟨rfl, hraw⟩ := closeQuote_eq_some_iff.1 hclose
      exact Spells.quoted hraw (ih hr)
  | case6 => simp at h
  | case7 => simp at h

/-- **The reader finds the lexemes that the text spells**, and stops nowhere. -/
theorem spells_iff {n : Nat} {cs : List Char} {ls : List Lexeme} :
    Spells n cs ls ↔ lexFrom n cs = ⟨ls, none⟩ :=
  ⟨lexFrom_of_spells, spells_of_lexFrom⟩

/-- A text spells at most one sequence of lexemes. -/
theorem Spells.unique {n : Nat} {cs : List Char} {ls ls' : List Lexeme} (h : Spells n cs ls)
    (h' : Spells n cs ls') : ls = ls' := by
  have hsame := (spells_iff.1 h).symm.trans (spells_iff.1 h')
  exact congrArg Lexed.lexemes hsame

/-! ### The first lexeme -/

section First

variable {n : Nat} {c : Char} {cs : List Char} {ls : List Lexeme}

theorem Spells.of_skip (hc : isIgnorable c = true) (h : Spells n (c :: cs) ls) :
    Spells (n + 1) cs ls := by
  rw [spells_iff, lexFrom_ignorable hc] at h
  exact spells_iff.2 h

theorem Spells.of_mark {t : Token} (hc : mark? c = some t) (h : Spells n (c :: cs) ls) :
    ∃ ms, ls = ⟨t, n⟩ :: ms ∧ Spells (n + 1) cs ms := by
  rw [spells_iff, lexFrom_mark (isIgnorable_of_mark? hc) hc] at h
  obtain ⟨ms, hls, hms⟩ := Lexed.cons_eq_iff.1 h
  exact ⟨ms, hls, spells_iff.2 hms⟩

theorem Spells.of_bare {run rest : List Char} (hc : isNameStart c = true)
    (hrun : ∀ d ∈ run, isNameChar d = true) (hrest : ∀ d ∈ rest.head?, isNameChar d = false)
    (h : Spells n (c :: (run ++ rest)) ls) :
    ∃ ms, ls = ⟨.name (.bare (String.ofList (c :: run))), n⟩ :: ms ∧
      Spells (n + 1 + run.length) rest ms := by
  rw [spells_iff, lexFrom_bare hc hrun hrest] at h
  obtain ⟨ms, hls, hms⟩ := Lexed.cons_eq_iff.1 h
  exact ⟨ms, hls, spells_iff.2 hms⟩

/-- A quote opens a name, which ends where the reader says. -/
theorem Spells.of_quote (h : Spells n ('"' :: cs) ls) :
    ∃ raw rest ms, cs = raw ++ '"' :: rest ∧ Enclosed raw ∧
      ls = ⟨.name (.quoted (String.ofList raw)), n⟩ :: ms ∧
        Spells (n + 2 + raw.length) rest ms := by
  cases h with
  | skip hc _ => exact absurd hc (by decide)
  | mark hc _ => cases hc
  | bare hc _ _ _ => exact absurd hc (by decide)
  | quoted hraw h => exact ⟨_, _, _, rfl, hraw, rfl, h⟩

end First

/-! ### What a spelling shows -/

/-- Bare names are made of name characters. -/
theorem Spells.isNameChar_of_bare {n : Nat} {cs : List Char} {ls : List Lexeme}
    (h : Spells n cs ls) {w : String} {o : Nat} (hw : ⟨.name (.bare w), o⟩ ∈ ls) :
    ∀ c ∈ w.toList, isNameChar c = true := by
  induction h with
  | done => simp at hw
  | skip _ _ ih => exact ih hw
  | @mark n c t cs ls hc _ ih =>
      rcases List.mem_cons.1 hw with e | hw
      · exact absurd (congrArg Lexeme.token e).symm (ne_name_of_mark? hc _)
      · exact ih hw
  | @bare n c run rest ls hc hrun _ _ ih =>
      rcases List.mem_cons.1 hw with e | hw
      · simp only [Lexeme.mk.injEq, Token.name.injEq, Name.bare.injEq] at e
        rw [e.1, String.toList_ofList]
        intro d hd
        rcases List.mem_cons.1 hd with rfl | hd
        · exact isNameChar_of_isNameStart hc
        · exact hrun d hd
      · exact ih hw
  | quoted _ _ ih =>
      rcases List.mem_cons.1 hw with e | hw
      · simp at e
      · exact ih hw

/-- A text of blanks spells no lexeme. -/
theorem Spells.eq_nil_of_blank {n : Nat} {cs : List Char} {ls : List Lexeme}
    (h : Spells n cs ls) (hb : cs.all Text.isBlank = true) : ls = [] := by
  induction h with
  | done => rfl
  | skip _ _ ih => exact ih (by simp_all)
  | mark hc _ => simp [isBlank_of_mark? hc] at hb
  | bare hc _ _ _ => simp [isBlank_of_isNameChar (isNameChar_of_isNameStart hc)] at hb
  | quoted _ _ =>
      have : Text.isBlank '"' = false := by decide
      simp [this] at hb

/-! ### Parentheses -/

/-- The matching of parentheses on lexemes: the offset of one without a partner, where `opened` are
the offsets of those that are open, the last one first. -/
def unmatchedLexeme (opened : List Nat) : List Lexeme → Option Nat
  | [] => opened.head?
  | ⟨.openParen, o⟩ :: ls => unmatchedLexeme (o :: opened) ls
  | ⟨.closeParen, o⟩ :: ls => match opened with
    | [] => some o
    | _ :: opened => unmatchedLexeme opened ls
  | _ :: ls => unmatchedLexeme opened ls

theorem unmatchedLexeme_of_other {t : Token} (ho : t ≠ .openParen) (hc : t ≠ .closeParen) (o : Nat)
    (opened : List Nat) (ls : List Lexeme) :
    unmatchedLexeme opened (⟨t, o⟩ :: ls) = unmatchedLexeme opened ls := by
  cases t <;> first | rfl | exact absurd rfl ho | exact absurd rfl hc

theorem unmatchedFrom_of_plain {c : Char} (hq : c ≠ '"') (ho : c ≠ '(') (hc : c ≠ ')') (n : Nat)
    (opened : List Nat) (cs : List Char) :
    unmatchedFrom n .plain opened (c :: cs) = unmatchedFrom (n + 1) .plain opened cs := by
  simp [unmatchedFrom, ho, hc, Quoting.next_plain hq]

/-- Name characters hide no parenthesis. -/
theorem unmatchedFrom_run {run : List Char} (hrun : ∀ d ∈ run, isNameChar d = true) (n : Nat)
    (opened : List Nat) (rest : List Char) :
    unmatchedFrom n .plain opened (run ++ rest) =
      unmatchedFrom (n + run.length) .plain opened rest := by
  induction run generalizing n with
  | nil => rfl
  | cons d ds ih =>
      have hd : isNameChar d = true := hrun d (List.mem_cons_self ..)
      have ho : d ≠ '(' := by rintro rfl; exact absurd hd (by decide)
      have hc : d ≠ ')' := by rintro rfl; exact absurd hd (by decide)
      rw [List.cons_append, unmatchedFrom_of_plain (ne_quote_of_isNameChar hd) ho hc,
        ih fun e he => hrun e (List.mem_cons_of_mem _ he), List.length_cons]
      congr 1
      omega

/-- A text between quotes hides its parentheses, and ends with its quote. -/
theorem unmatchedFrom_enclosed {raw : List Char} (h : Enclosed raw) (n : Nat) (opened : List Nat)
    (rest : List Char) :
    unmatchedFrom n .quoted opened (raw ++ '"' :: rest) =
      unmatchedFrom (n + raw.length + 1) .plain opened rest := by
  induction h generalizing n with
  | nil => simp [unmatchedFrom, Quoting.next]
  | plain hq hb _ ih =>
      simp [unmatchedFrom, Quoting.next, hq, hb, ih]
      congr 1
      omega
  | escaped hn _ ih =>
      simp [unmatchedFrom, Quoting.next, ih]
      congr 1
      omega

/-- **Parentheses are matched on the lexemes as on the text.** -/
theorem Spells.unmatchedFrom_eq {n : Nat} {cs : List Char} {ls : List Lexeme}
    (h : Spells n cs ls) (opened : List Nat) :
    unmatchedFrom n .plain opened cs = unmatchedLexeme opened ls := by
  induction h generalizing opened with
  | done n => rfl
  | @skip n c cs ls hc _ ih =>
      have apart : [' ', '\t', '\x0c', '\r', '\n'].all
          (fun d => decide (d ≠ '"' ∧ d ≠ '(' ∧ d ≠ ')')) = true := by decide
      obtain ⟨hq, ho, hcl⟩ := of_decide_eq_true
        (List.all_eq_true.1 apart c (mem_of_isIgnorable hc))
      rw [unmatchedFrom_of_plain hq ho hcl, ih]
  | @mark n c t cs ls hc _ ih =>
      have apart : ∀ p ∈ marks, p.1 ≠ '"' ∧ (p.1 = '(' ↔ p.2 = .openParen) ∧
          (p.1 = ')' ↔ p.2 = .closeParen) := by decide
      obtain ⟨hq, ho, hcl⟩ := apart (c, t) (mem_marks_of_mark? hc)
      by_cases hto : t = .openParen
      · obtain rfl : c = '(' := ho.2 hto
        simp [unmatchedFrom, unmatchedLexeme, hto, ih]
      · by_cases htc : t = .closeParen
        · obtain rfl : c = ')' := hcl.2 htc
          cases opened <;> simp [unmatchedFrom, unmatchedLexeme, htc, ih]
        · rw [unmatchedFrom_of_plain hq (mt ho.1 hto) (mt hcl.1 htc), ih,
            unmatchedLexeme_of_other hto htc]
  | @bare n c run rest ls hc hrun _ _ ih =>
      have hall : ∀ d ∈ c :: run, isNameChar d = true := by
        intro d hd
        rcases List.mem_cons.1 hd with rfl | hd
        · exact isNameChar_of_isNameStart hc
        · exact hrun d hd
      rw [← List.cons_append, unmatchedFrom_run hall, List.length_cons,
        unmatchedLexeme_of_other (by simp) (by simp), ← ih]
      congr 1
      omega
  | @quoted n raw rest ls hraw _ ih =>
      have hopen : unmatchedFrom n .plain opened ('"' :: (raw ++ '"' :: rest)) =
          unmatchedFrom (n + 1) .quoted opened (raw ++ '"' :: rest) := by
        simp [unmatchedFrom, Quoting.next]
      rw [hopen, unmatchedFrom_enclosed hraw, unmatchedLexeme_of_other (by simp) (by simp), ← ih]
      congr 1
      omega

theorem unmatchedLexeme_fields (opened : List Nat) (f : FieldList) (rest : List Lexeme) :
    unmatchedLexeme opened (f.lexemes ++ rest) = unmatchedLexeme opened rest := by
  obtain ⟨first, more⟩ := f
  simp only [FieldList.lexemes, NameAt.lexeme, List.cons_append]
  rw [unmatchedLexeme_of_other (by simp) (by simp)]
  induction more with
  | nil => rfl
  | cons m ms ih =>
      simp only [List.flatMap_cons, List.cons_append, List.nil_append]
      rw [unmatchedLexeme_of_other (by simp) (by simp),
        unmatchedLexeme_of_other (by simp) (by simp), ih]

/-- **In the lexemes of a tree every parenthesis has its partner.** -/
theorem unmatchedLexeme_tree (t : Tree) (opened : List Nat) (rest : List Lexeme) :
    unmatchedLexeme opened (t.lexemes ++ rest) = unmatchedLexeme opened rest := by
  induction t generalizing opened rest with
  | type name offset => rfl
  | wildcard star => rfl
  | group opening inner closing ih =>
      simp [Tree.lexemes, unmatchedLexeme, ih]
  | capture name colon inner ih =>
      simp [Tree.lexemes, unmatchedLexeme, NameAt.lexeme, ih]
  | filter inner opening fields closing ih =>
      simp [Tree.lexemes, unmatchedLexeme, ih, unmatchedLexeme_fields]
  | negation bang inner ih => simp [Tree.lexemes, unmatchedLexeme, ih]
  | conjunction left mark right ihl ihr => simp [Tree.lexemes, unmatchedLexeme, ihl, ihr]
  | alternative left mark right ihl ihr => simp [Tree.lexemes, unmatchedLexeme, ihl, ihr]
  | parent child mark ancestor ihc iha => simp [Tree.lexemes, unmatchedLexeme, ihc, iha]

/-- A text that spells a tree is not blank, and its parentheses match. -/
theorem readable_of_spells {source : String} {t : Tree} (h : Spells 0 source.toList t.lexemes) :
    source.toList.all Text.isBlank = false ∧ unmatched? source = none := by
  constructor
  · cases hb : source.toList.all Text.isBlank with
    | false => rfl
    | true =>
        have := t.head?_lexemes
        rw [h.eq_nil_of_blank hb] at this
        simp at this
  · have := unmatchedLexeme_tree t [] []
    rw [List.append_nil] at this
    rw [unmatched?, h.unmatchedFrom_eq, this]
    rfl

end Selector

/-! ### Names of types -/

theorem Text.lowerFrom_of_ascii {cs : List Char} (h : ∀ c ∈ cs, c.toNat < 0x80)
    (before : List Char) : Text.lowerFrom before cs = cs.map Char.toLower := by
  induction cs generalizing before with
  | nil => rfl
  | cons c cs ih =>
      have hc : c.toNat < 0x80 := h c (List.mem_cons_self ..)
      have hsigma : c ≠ 'Σ' := by rintro rfl; exact absurd hc (by decide)
      have hdotted : c ≠ 'İ' := by rintro rfl; exact absurd hc (by decide)
      rw [Text.lowerFrom, ih fun d hd => h d (List.mem_cons_of_mem _ hd)]
      simp [hsigma, hdotted, Text.lowerChar_ascii hc]

/-- A bare name is the name of a type up to the case of its letters. -/
theorem EntryType.ofText_eq_ok_iff {w : String}
    (hw : ∀ c ∈ w.toList, Selector.isNameChar c = true) {t : EntryType} :
    EntryType.ofText w = .ok t ↔ w.toList.map Char.toLower = t.name.toList := by
  have hascii : ∀ c ∈ w.toList, c.toNat < 0x80 := by
    intro c hc
    have := Selector.toNat_of_isNameChar (hw c hc)
    omega
  have hnormal : EntryType.normalName w = String.ofList (w.toList.map Char.toLower) := by
    have hblank : ∀ c ∈ w.toList, Text.isBlank c = false := fun c hc =>
      Selector.isBlank_of_isNameChar (hw c hc)
    rw [EntryType.normalName, (Text.trimmed_of_not_blank hblank).trim_eq, Text.lower,
      Text.lowerFrom_of_ascii hascii]
  have hname : EntryType.ofText w = .ok t ↔
      EntryType.ofName? (String.ofList (w.toList.map Char.toLower)) = some t := by
    rw [EntryType.ofText, hnormal]
    split <;> simp_all
  rw [hname]
  constructor
  · intro h
    rw [EntryType.name_of_ofName? h, String.toList_ofList]
  · intro h
    rw [h, String.ofList_toList]
    exact EntryType.ofName?_name t

end Bibliograph
