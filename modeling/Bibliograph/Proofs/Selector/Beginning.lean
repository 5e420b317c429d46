import Bibliograph.Proofs.Selector.Spelling

/-!
# How a text begins

A text that spells no sequence of lexemes as a whole may still do so up to an offset.  What follows
there is always looked at: a bare name does not end where its characters go on.

Main definitions:

* `Selector.SpellsUpTo`: a text spells a sequence of lexemes up to an offset;
* `Selector.NothingStarts`: neither a lexeme nor an ignorable character stands at an offset.

Main results:

* `Selector.SpellsUpTo.append`: spelling goes on where it was left;
* `Selector.spellsUpTo_of_lexFrom`: the reader finds the first lexemes where the text spells them,
  one after the other;
* `Selector.nothingStarts_of_lexFrom`: where the reader stops, nothing starts.
-/

set_option autoImplicit false

namespace Bibliograph.Selector

/-- The text `cs`, which starts at the offset `n`, spells lexemes up to the offset `m`, where `rest`
follows. -/
inductive SpellsUpTo : Nat → List Char → List Lexeme → Nat → List Char → Prop
  | here (n : Nat) (cs : List Char) : SpellsUpTo n cs [] n cs
  | skip {n m : Nat} {c : Char} {cs rest : List Char} {ls : List Lexeme}
      (hc : isIgnorable c = true) (h : SpellsUpTo (n + 1) cs ls m rest) :
      SpellsUpTo n (c :: cs) ls m rest
  | mark {n m : Nat} {c : Char} {t : Token} {cs rest : List Char} {ls : List Lexeme}
      (hc : mark? c = some t) (h : SpellsUpTo (n + 1) cs ls m rest) :
      SpellsUpTo n (c :: cs) (⟨t, n⟩ :: ls) m rest
  | bare {n m : Nat} {c : Char} {run cs rest : List Char} {ls : List Lexeme}
      (hc : isNameStart c = true) (hrun : ∀ d ∈ run, isNameChar d = true)
      (hcs : ∀ d ∈ cs.head?, isNameChar d = false)
      (h : SpellsUpTo (n + 1 + run.length) cs ls m rest) :
      SpellsUpTo n (c :: (run ++ cs)) (⟨.name (.bare (String.ofList (c :: run))), n⟩ :: ls) m rest
  | quoted {n m : Nat} {raw cs rest : List Char} {ls : List Lexeme} (hraw : Enclosed raw)
      (h : SpellsUpTo (n + 2 + raw.length) cs ls m rest) :
      SpellsUpTo n ('"' :: (raw ++ '"' :: cs))
        (⟨.name (.quoted (String.ofList raw)), n⟩ :: ls) m rest

/-- At the offset `n` there is a text `cs`, but neither a lexeme nor an ignorable character. -/
def NothingStarts (n : Nat) (cs : List Char) : Prop :=
  (∀ c ∈ cs.head?, isIgnorable c = false) ∧
    ∀ (l : Lexeme) (m : Nat) (rest : List Char), ¬ SpellsUpTo n cs [l] m rest

namespace SpellsUpTo

variable {n m : Nat} {cs rest : List Char} {ls : List Lexeme}

/-- Spelling goes on where it was left. -/
theorem append {k : Nat} {tail : List Char} {ms : List Lexeme} (h : SpellsUpTo n cs ls m rest)
    (h' : SpellsUpTo m rest ms k tail) : SpellsUpTo n cs (ls ++ ms) k tail := by
  induction h with
  | here => exact h'
  | skip hc _ ih => exact .skip hc (ih h')
  | mark hc _ ih => exact .mark hc (ih h')
  | bare hc hrun hcs _ ih => exact .bare hc hrun hcs (ih h')
  | quoted hraw _ ih => exact .quoted hraw (ih h')

/-- The offsets count the characters. -/
theorem offset_eq (h : SpellsUpTo n cs ls m rest) : m + rest.length = n + cs.length := by
  induction h with
  | here => rfl
  | skip _ _ ih =>
      rw [ih, List.length_cons]
      omega
  | mark _ _ ih =>
      rw [ih, List.length_cons]
      omega
  | bare _ _ _ _ ih =>
      rw [ih, List.length_cons, List.length_append]
      omega
  | quoted _ _ ih =>
      rw [ih]
      simp only [List.length_cons, List.length_append]
      omega

end SpellsUpTo

/-! ### The reader and the beginning of a text -/

/-- The first lexeme stands behind ignorable characters, and the reading goes on behind it. -/
theorem spellsUpTo_of_lexFrom_cons {n : Nat} {cs : List Char} {l : Lexeme} {ls : List Lexeme}
    {stop : Option (Nat × Char)} (h : lexFrom n cs = ⟨l :: ls, stop⟩) :
    ∃ tail m rest, SpellsUpTo n cs [] l.offset tail ∧ SpellsUpTo l.offset tail [l] m rest ∧
      lexFrom m rest = ⟨ls, stop⟩ := by
  fun_induction lexFrom n cs with
  | case1 => simp at h
  | case2 n c cs hc ih =>
      obtain ⟨tail, m, rest, hskip, hl, hrest⟩ := ih h
      exact ⟨tail, m, rest, .skip hc hskip, hl, hrest⟩
  | case3 n c cs _ t hc _ =>
      obtain ⟨_, ⟨⟩, hrest⟩ := Lexed.cons_eq_iff.1 h
      exact ⟨c :: cs, n + 1, cs, .here _ _, .mark hc (.here _ _), hrest⟩
  | case4 n c cs _ _ hc run _ =>
      obtain ⟨_, ⟨⟩, hrest⟩ := Lexed.cons_eq_iff.1 h
      obtain ⟨hrun, htail⟩ := dropWhile_run cs
      have hbare := SpellsUpTo.bare hc hrun htail (.here (n + 1 + run.length) _)
      rw [List.takeWhile_append_dropWhile] at hbare
      exact ⟨c :: cs, _, _, .here _ _, hbare, hrest⟩
  | case5 n cs raw rest hclose _ _ _ _ =>
      obtain ⟨_, ⟨⟩, hrest⟩ := Lexed.cons_eq_iff.1 h
      obtain ⟨rfl, hraw⟩ := closeQuote_eq_some_iff.1 hclose
      exact ⟨_, _, rest, .here _ _, .quoted hraw (.here _ _), hrest⟩
  | case6 => simp at h
  | case7 => simp at h

/-- **The reader finds the first lexemes where the text spells them.** -/
theorem spellsUpTo_of_lexFrom {ls ms : List Lexeme} {n : Nat} {cs : List Char}
    {stop : Option (Nat × Char)} (h : lexFrom n cs = ⟨ls ++ ms, stop⟩) :
    ∃ m rest, SpellsUpTo n cs ls m rest ∧ lexFrom m rest = ⟨ms, stop⟩ := by
  induction ls generalizing n cs with
  | nil => exact ⟨n, cs, .here n cs, h⟩
  | cons l ls ih =>
      obtain ⟨tail, k, rest, hskip, hl, hrest⟩ := spellsUpTo_of_lexFrom_cons h
      obtain ⟨m, rest', hls, hms⟩ := ih hrest
      exact ⟨m, rest', (hskip.append hl).append hls, hms⟩

theorem nothingStarts_of_char {c : Char} {cs : List Char} (hi : isIgnorable c = false)
    (hmark : mark? c = none) (hstart : isNameStart c = false)
    (hquote : c = '"' → closeQuote cs = none) (n : Nat) : NothingStarts n (c :: cs) := by
  refine ⟨by simp [hi], fun l m rest h => ?_⟩
  cases h with
  | skip hc _ => simp [hi] at hc
  | mark hc _ => simp [hmark] at hc
  | bare hc _ _ _ => simp [hstart] at hc
  | quoted hraw _ =>
      have hnone := hquote rfl
      rw [closeQuote_of_enclosed hraw] at hnone
      cases hnone

/-- **Where the reader stops, nothing starts**, and ignorable characters stand in between. -/
theorem nothingStarts_of_lexFrom {n o : Nat} {c : Char} {cs : List Char}
    (h : lexFrom n cs = ⟨[], some (o, c)⟩) :
    ∃ rest, SpellsUpTo n cs [] o (c :: rest) ∧ NothingStarts o (c :: rest) := by
  fun_induction lexFrom n cs with
  | case1 => simp at h
  | case2 n d cs hd ih =>
      obtain ⟨rest, hskip, hnone⟩ := ih h
      exact ⟨rest, .skip hd hskip, hnone⟩
  | case3 => simp [Lexed.cons] at h
  | case4 => simp [Lexed.cons] at h
  | case5 => simp [Lexed.cons] at h
  | case6 n cs hclose hi hmark hstart =>
      cases h
      exact ⟨cs, .here _ _, nothingStarts_of_char (by simpa using hi) hmark (by simpa using hstart)
        (fun _ => hclose) _⟩
  | case7 n d cs hi hmark hstart hq =>
      cases h
      exact ⟨cs, .here _ _, nothingStarts_of_char (by simpa using hi) hmark (by simpa using hstart)
        (fun hc => absurd hc hq) _⟩

end Bibliograph.Selector
