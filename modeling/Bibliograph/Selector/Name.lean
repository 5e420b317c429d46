/-!
# Names in selectors

Field names and capture names are written bare, or in double quotes where a backslash escapes a
double quote and another backslash.

Main definitions:

* `Selector.Name`: the two ways to write a name;
* `Selector.Name.source`: the text as it is written;
* `Selector.Name.value`: the name that is meant;
* `Selector.closeQuote`: splits a text at the double quote that closes a name.

Main results:

* `Selector.closeQuote_append`: what is split gives the text again;
* `Selector.replacePair_eq_self`: without the pair nothing is replaced.
-/

set_option autoImplicit false

namespace Bibliograph.Selector

/-- A name as it is written; `raw` is the text between the quotes. -/
inductive Name where
  | bare (text : String)
  | quoted (raw : String)
  deriving Repr, DecidableEq

/-- The text of a name as it is written. -/
def Name.source : Name → String
  | bare text => text
  | quoted raw => "\"" ++ raw ++ "\""

/-! ### Escapes -/

/-- Replaces the two characters `a b`, wherever they stand side by side, by the one character `c`;
a character takes part in one replacement only. -/
def replacePair (a b c : Char) : List Char → List Char
  | x :: y :: rest =>
    if x = a ∧ y = b then c :: replacePair a b c rest else x :: replacePair a b c (y :: rest)
  | [x] => [x]
  | [] => []

theorem replacePair_eq_self {a b c : Char} {cs : List Char} (h : a ∉ cs) :
    replacePair a b c cs = cs := by
  fun_induction replacePair a b c cs with
  | case1 x y rest hxy _ => exact absurd (by simp [hxy.1]) h
  | case2 x y rest _ ih => rw [ih fun e => h (List.mem_cons_of_mem _ e)]
  | case3 => rfl
  | case4 => rfl

/-- The text that is meant by the text between quotes. -/
def unescape (raw : List Char) : List Char :=
  replacePair '\\' '\\' '\\' (replacePair '\\' '"' '"' raw)

/-- The name that is meant. -/
def Name.value : Name → String
  | bare text => text
  | quoted raw => String.ofList (unescape raw.toList)

/-! ### The closing quote -/

/-- The text up to the quote that closes a name, and what follows the quote.  A backslash takes the
next character with it, which must not be a line feed. -/
def closeQuote : List Char → Option (List Char × List Char)
  | [] => none
  | c :: rest =>
    if c = '"' then some ([], rest)
    else if c = '\\' then
      match rest with
      | [] => none
      | d :: rest =>
        if d = '\n' then none
        else (closeQuote rest).map fun p => (c :: d :: p.1, p.2)
    else (closeQuote rest).map fun p => (c :: p.1, p.2)

theorem closeQuote_append {cs raw rest : List Char} (h : closeQuote cs = some (raw, rest)) :
    cs = raw ++ '"' :: rest := by
  fun_induction closeQuote cs generalizing raw rest with
  | case1 => simp at h
  | case2 rest => simp at h; simp [← h.1, h.2]
  | case3 => simp at h
  | case4 => simp at h
  | case5 d rest' _ _ ih =>
    obtain ⟨⟨r, t⟩, hr, hp⟩ := Option.map_eq_some_iff.1 h
    simp only [Prod.mk.injEq] at hp
    rw [ih hr, ← hp.1, ← hp.2]
    simp
  | case6 c rest' _ _ ih =>
    obtain ⟨⟨r, t⟩, hr, hp⟩ := Option.map_eq_some_iff.1 h
    simp only [Prod.mk.injEq] at hp
    rw [ih hr, ← hp.1, ← hp.2]
    simp

theorem length_of_closeQuote {cs raw rest : List Char} (h : closeQuote cs = some (raw, rest)) :
    rest.length < cs.length := by
  rw [closeQuote_append h]
  simp
  omega

end Bibliograph.Selector
