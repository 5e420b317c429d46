import Bibliograph.Proofs.Selector.ReadBack
import Mathlib.Computability.Language

/-!
# Quoted names

The grammar gives names in quotes by the pattern `"[^"\\]*(\\.[^"\\]*)*"`.  This module says which
texts these are, what they mean, and that escaping gives such a text for everything that can be
meant.

Main definitions:

* `Selector.namePattern`: the pattern as a language.

Main results:

* `Selector.mem_namePattern_iff`: what matches is an enclosed text between quotes;
* `Selector.quoted_names`: **a text that matches is read as one name**, which is what one reading
  from left to right finds, and every text is the name of a text that matches.
-/

set_option autoImplicit false

namespace Bibliograph.Selector

open Computability

/-! ### The pattern -/

/-- The texts of one character with a property. -/
def oneChar (p : Char → Prop) : Language Char :=
  {cs | ∃ c, p c ∧ cs = [c]}

theorem mem_oneChar {p : Char → Prop} {c : Char} : [c] ∈ oneChar p ↔ p c := by
  constructor
  · rintro ⟨d, hd, h⟩
    rwa [(List.cons.inj h).1]
  · exact fun hc => ⟨c, hc, rfl⟩

/-- The pattern `[^"\\]`. -/
def plainChar : Language Char :=
  oneChar fun c => c ≠ '"' ∧ c ≠ '\\'

/-- The pattern `\\.`; the dot is any character but a line feed. -/
def escapedChar : Language Char :=
  oneChar (· = '\\') * oneChar (· ≠ '\n')

/-- The pattern `[^"\\]*(\\.[^"\\]*)*` of what stands between the quotes. -/
def rawPattern : Language Char :=
  plainChar∗ * (escapedChar * plainChar∗)∗

/-- The pattern `"[^"\\]*(\\.[^"\\]*)*"` of a name in quotes. -/
def namePattern : Language Char :=
  oneChar (· = '"') * rawPattern * oneChar (· = '"')

/-- A repetition with one more in front. -/
theorem append_mem_kstar {l : Language Char} {x y : List Char} (hx : x ∈ l) (hy : y ∈ l∗) :
    x ++ y ∈ l∗ :=
  mul_kstar_le_kstar (a := l) (Language.append_mem_mul hx hy)

theorem mem_rawPattern_of_enclosed {raw : List Char} (h : Enclosed raw) : raw ∈ rawPattern := by
  induction h with
  | nil => exact Language.append_mem_mul (Language.nil_mem_kstar _) (Language.nil_mem_kstar _)
  | @plain c cs hq hb _ ih =>
      obtain ⟨run, hrun, rest, hrest, rfl⟩ := Language.mem_mul.1 ih
      have hc : [c] ∈ plainChar := mem_oneChar.2 ⟨hq, hb⟩
      exact Language.append_mem_mul (append_mem_kstar hc hrun) hrest
  | @escaped c cs hn _ ih =>
      obtain ⟨run, hrun, rest, hrest, rfl⟩ := Language.mem_mul.1 ih
      have hbackslash : ['\\'] ∈ oneChar (· = '\\') := mem_oneChar.2 rfl
      have hc : ['\\', c] ∈ escapedChar :=
        Language.append_mem_mul hbackslash (mem_oneChar.2 hn)
      have hpart := Language.append_mem_mul hc hrun
      exact Language.append_mem_mul (Language.nil_mem_kstar _) (append_mem_kstar hpart hrest)

/-- Plain characters can be put in front. -/
theorem Enclosed.append_run {run rest : List Char} (hrun : run ∈ plainChar∗)
    (h : Enclosed rest) : Enclosed (run ++ rest) := by
  obtain ⟨parts, rfl, hparts⟩ := Language.mem_kstar.1 hrun
  clear hrun
  induction parts with
  | nil => exact h
  | cons part parts ih =>
      rw [List.forall_mem_cons] at hparts
      obtain ⟨c, ⟨hq, hb⟩, rfl⟩ := hparts.1
      exact .plain hq hb (ih hparts.2)

theorem enclosed_of_mem_rawPattern {raw : List Char} (h : raw ∈ rawPattern) : Enclosed raw := by
  obtain ⟨run, hrun, rest, hrest, rfl⟩ := Language.mem_mul.1 h
  obtain ⟨parts, rfl, hparts⟩ := Language.mem_kstar.1 hrest
  refine Enclosed.append_run hrun ?_
  clear h hrest
  -- each part is an escaped character with the plain ones behind it
  induction parts with
  | nil => exact .nil
  | cons part parts ih =>
      rw [List.forall_mem_cons] at hparts
      obtain ⟨_, ⟨_, ⟨_, rfl, rfl⟩, _, ⟨c, hn, rfl⟩, rfl⟩, run, hrun, rfl⟩ := hparts.1
      have htail : Enclosed (run ++ parts.flatten) := .append_run hrun (ih hparts.2)
      simpa using Enclosed.escaped hn htail

/-- **What matches is an enclosed text between quotes.** -/
theorem mem_namePattern_iff {cs : List Char} :
    cs ∈ namePattern ↔ ∃ raw, Enclosed raw ∧ cs = '"' :: (raw ++ ['"']) := by
  constructor
  · rintro ⟨_, ⟨_, ⟨_, rfl, rfl⟩, raw, hraw, rfl⟩, _, ⟨_, rfl, rfl⟩, rfl⟩
    exact ⟨raw, enclosed_of_mem_rawPattern hraw, rfl⟩
  · rintro ⟨raw, hraw, rfl⟩
    have hquote : ['"'] ∈ oneChar (· = '"') := mem_oneChar.2 rfl
    have hopened := Language.append_mem_mul hquote (mem_rawPattern_of_enclosed hraw)
    exact Language.append_mem_mul hopened hquote

/-! ### Names -/

/-- A text that matches is read as one name. -/
theorem lex_of_enclosed {raw : List Char} (h : Enclosed raw) :
    lex (Name.quoted (String.ofList raw)).source =
      ⟨[⟨.name (.quoted (String.ofList raw)), 0⟩], none⟩ := by
  have htext : (Name.quoted (String.ofList raw)).source.toList = '"' :: (raw ++ '"' :: []) := by
    simp [Name.source, String.toList_append]
  rw [lex, htext, lexFrom_quoted h, lexFrom_nil]
  rfl

/-- **A text that matches is read as one name**, which is the one that is found by one reading from
left to right.  Every text is the name of a text that matches, that with a backslash in front of
each quote and backslash; so everything but the empty text can be the name of a capture and of a
field. -/
theorem quoted_names :
    (∀ text : String, text.toList ∈ namePattern → ∃ raw,
      text = (Name.quoted raw).source ∧ lex text = ⟨[⟨.name (.quoted raw), 0⟩], none⟩ ∧
        (Name.quoted raw).value = String.ofList (unescapeOnce raw.toList)) ∧
    ∀ s : String, (Name.escaped s).source.toList ∈ namePattern ∧
      lex (Name.escaped s).source = ⟨[⟨.name (.escaped s), 0⟩], none⟩ ∧
      (Name.escaped s).value = s ∧
      (s ≠ "" → parseExpr ((Name.escaped s).source ++ ":*") = .ok (.capture s .any) ∧
        parseExpr ("*[" ++ (Name.escaped s).source ++ "]") = .ok (.filter .any s)) := by
  refine ⟨fun text htext => ?_, fun s => ⟨?_, lex_of_enclosed (enclosed_escape _),
    Name.value_escaped s, parseExpr_of_escaped⟩⟩
  · obtain ⟨raw, hraw, hcs⟩ := mem_namePattern_iff.1 htext
    obtain rfl : text = (Name.quoted (String.ofList raw)).source := by
      apply String.toList_injective
      simp [hcs, Name.source, String.toList_append]
    refine ⟨String.ofList raw, rfl, lex_of_enclosed hraw, ?_⟩
    rw [Name.value, unescape_eq_unescapeOnce]
  · refine mem_namePattern_iff.2 ⟨escape s.toList, enclosed_escape _, ?_⟩
    simp [Name.escaped, Name.source, String.toList_append]

/-- A backslash and a quote as a name: of the three backslashes in front of the quote, the first two
stand for one, and the third one belongs to the quote. -/
theorem quoted_names_of_backslash_and_quote :
    "\"\\\\\\\"\"".toList ∈ namePattern ∧
      lex "\"\\\\\\\"\"" = ⟨[⟨.name (.quoted "\\\\\\\""), 0⟩], none⟩ ∧
      parseExpr "\"\\\\\\\"\":*" = .ok (.capture "\\\"" .any) := by
  obtain ⟨hmatches, hlex, -, hparse⟩ := quoted_names.2 "\\\""
  have hsource : (Name.escaped "\\\"").source = "\"\\\\\\\"\"" := by decide
  rw [hsource] at hmatches hlex hparse
  exact ⟨hmatches, hlex, (hparse (by decide)).1⟩

end Bibliograph.Selector
