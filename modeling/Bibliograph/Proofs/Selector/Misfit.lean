import Bibliograph.Proofs.Selector.Beginning
import Bibliograph.Proofs.Selector.Viability

/-!
# Where a text stops being the beginning of a selector

A text that is no selector of the grammar is refused at the first place where it can no longer be
continued to one: at the first lexeme that does not fit, at the first character where no lexeme
starts, or at its end.  What was read up to there is the beginning of a selector.

Main definitions:

* `Selector.Ungrammatical`: a text that spells no selector of the grammar;
* `Selector.FirstMisfit`: an error stands where a text stops being the beginning of a selector.

Main results:

* `Selector.Draft.read_eq_error`: reading stops at the first lexeme that does not fit;
* `Selector.firstMisfit_of_grammarTree`: the reader refuses a text at its first misfit;
* `Selector.parseExpr_error_firstMisfit`: **a text that is no selector is refused at its first
  misfit**, unless it is blank or a parenthesis has no partner.
-/

set_option autoImplicit false

namespace Bibliograph.Selector

/-- The text spells no selector of the grammar, if it spells any lexemes at all. -/
def Ungrammatical (source : String) : Prop :=
  ∀ ls : List Lexeme, Spells 0 source.toList ls → ¬ Grammatical (ls.map Lexeme.token)

/-- The error stands where the text stops being the beginning of a selector.  Up to its offset the
text spells lexemes with which a selector can begin; then comes a lexeme with which it cannot go on,
or a character where nothing starts, or the end of a text to which something is missing.  Errors
of other kinds are about texts that are not read at all. -/
def FirstMisfit (source : String) (err : SelectorError) : Prop :=
  match err.fault with
  | .empty => source.toList.all Text.isBlank = true
  | .unbalancedParentheses => unmatched? source = some err.offset
  | .unexpectedToken text =>
      err.offset < source.length ∧
        ∃ before tail l m rest, SpellsUpTo 0 source.toList before err.offset tail ∧
          SpellsUpTo err.offset tail [l] m rest ∧ l.offset = err.offset ∧ l.token.source = text ∧
          Viable (before.map Lexeme.token) ∧ ¬ Viable ((before ++ [l]).map Lexeme.token)
  | .unexpectedCharacter c =>
      err.offset < source.length ∧
        ∃ before rest, SpellsUpTo 0 source.toList before err.offset (c :: rest) ∧
          NothingStarts err.offset (c :: rest) ∧ Viable (before.map Lexeme.token)
  | .unexpectedEnd =>
      err.offset = source.length ∧
        ∃ ls more, Spells 0 source.toList ls ∧ more ≠ [] ∧
          Grammatical (ls.map Lexeme.token ++ more)
  | _ => False

/-! ### Reading up to a misfit -/

/-- Reading stops at the first lexeme that does not fit. -/
theorem Draft.read_eq_error {d : Draft} {ls : List Lexeme} {l : Lexeme}
    (h : d.read ls = .error l) :
    ∃ before after e, ls = before ++ l :: after ∧ d.read before = .ok e ∧ e.step? l = none := by
  induction ls generalizing d with
  | nil => cases h
  | cons k ls ih =>
      rw [read] at h
      split at h
      · rename_i e hstep
        obtain ⟨before, after, e', rfl, hread, hnone⟩ := ih h
        refine ⟨k :: before, after, e', rfl, ?_, hnone⟩
        rw [read, hstep]
        exact hread
      · rename_i hstep
        cases h
        exact ⟨[], ls, d, rfl, rfl, hstep⟩

/-- With a lexeme that does not fit the beginning of a selector ends. -/
theorem not_viable_of_step? {before : List Lexeme} {l : Lexeme} {e : Draft}
    (hread : (Draft.mk [] .operand).read before = .ok e) (hstep : e.step? l = none) :
    ¬ Viable ((before ++ [l]).map Lexeme.token) := by
  rw [viable_iff_read, Draft.read_append_of_ok hread, Draft.read, hstep]
  rintro ⟨_, h⟩
  cases h

theorem SpellsUpTo.offset_lt {n m k : Nat} {cs tail rest : List Char} {ls : List Lexeme}
    {l : Lexeme} (h : SpellsUpTo n cs ls m tail) (hl : SpellsUpTo m tail [l] k rest) :
    m < n + cs.length := by
  have hoffset := h.offset_eq
  cases tail with
  | nil => cases hl
  | cons c tail =>
      rw [List.length_cons] at hoffset
      omega

section Reader

variable {source : String} {ls : List Lexeme}

/-- A lexeme that does not fit is the first misfit. -/
theorem firstMisfit_token {stop : Option (Nat × Char)} {l : Lexeme}
    (hlex : lex source = ⟨ls, stop⟩) (hread : (Draft.mk [] .operand).read ls = .error l) :
    FirstMisfit source ⟨.unexpectedToken l.token.source, l.offset, source⟩ := by
  obtain ⟨before, after, e, rfl, hbefore, hstep⟩ := Draft.read_eq_error hread
  obtain ⟨m, rest, hfirst, hnext⟩ := spellsUpTo_of_lexFrom hlex
  obtain ⟨tail, k, rest', hskip, hl, -⟩ := spellsUpTo_of_lexFrom_cons hnext
  have hup : SpellsUpTo 0 source.toList before l.offset tail := by
    simpa using hfirst.append hskip
  have hlt : l.offset < source.length := by
    have hoffset := hup.offset_lt hl
    rwa [Nat.zero_add, String.length_toList] at hoffset
  exact ⟨hlt, before, tail, l, k, rest', hup, hl, rfl, rfl, viable_of_read hbefore,
    not_viable_of_step? hbefore hstep⟩

/-- A character where no lexeme starts is the first misfit, once all in front of it was read. -/
theorem firstMisfit_character {o : Nat} {c : Char} {e : Draft}
    (hlex : lex source = ⟨ls, some (o, c)⟩) (hread : (Draft.mk [] .operand).read ls = .ok e) :
    FirstMisfit source ⟨.unexpectedCharacter c, o, source⟩ := by
  have hall : lexFrom 0 source.toList = ⟨ls ++ [], some (o, c)⟩ := by
    rw [List.append_nil]
    exact hlex
  obtain ⟨m, rest, hfirst, hnext⟩ := spellsUpTo_of_lexFrom hall
  obtain ⟨rest', hskip, hnone⟩ := nothingStarts_of_lexFrom hnext
  have hup : SpellsUpTo 0 source.toList ls o (c :: rest') := by
    simpa using hfirst.append hskip
  have hlt : o < source.length := by
    have hoffset := hup.offset_eq
    rw [List.length_cons, String.length_toList] at hoffset
    omega
  exact ⟨hlt, ls, rest', hup, hnone, viable_of_read hread⟩

/-- The end is the first misfit if something is missing there. -/
theorem firstMisfit_end {e : Draft} (h : Ungrammatical source)
    (hlex : lex source = ⟨ls, none⟩) (hread : (Draft.mk [] .operand).read ls = .ok e) :
    FirstMisfit source ⟨.unexpectedEnd, source.length, source⟩ := by
  have hspells : Spells 0 source.toList ls := spells_iff.2 hlex
  obtain ⟨more, hmore⟩ := viable_of_read hread
  refine ⟨rfl, ls, more, hspells, ?_, hmore⟩
  rintro rfl
  rw [List.append_nil] at hmore
  exact h ls hspells hmore

/-- **The reader refuses a text at its first misfit.** -/
theorem firstMisfit_of_grammarTree (h : Ungrammatical source) :
    ∃ err, grammarTree source = .error err ∧ FirstMisfit source err := by
  cases hlex : lex source with | mk ls stop =>
  cases hread : (Draft.mk [] .operand).read ls with
  | error l =>
      refine ⟨_, ?_, firstMisfit_token hlex hread⟩
      simp only [grammarTree, hlex, hread]
  | ok e =>
      cases stop with
      | some p =>
          refine ⟨_, ?_, firstMisfit_character hlex hread⟩
          simp only [grammarTree, hlex, hread]
      | none =>
          refine ⟨_, ?_, firstMisfit_end h hlex hread⟩
          cases hfinish : e.finish? with
          | none => simp only [grammarTree, hlex, hread, hfinish]
          | some t =>
              have hok : grammarTree source = .ok t := by
                simp only [grammarTree, hlex, hread, hfinish]
              obtain ⟨⟨d, rfl⟩, ht⟩ := grammarTree_eq_ok_iff.1 hok
              exact absurd ⟨d, rfl⟩ (h _ ht)

end Reader

/-! ### Errors of texts -/

/-- **A text that is no selector is refused at its first misfit**, unless it is blank or a
parenthesis has no partner. -/
theorem parseExpr_error_firstMisfit {source : String} (h : Ungrammatical source) :
    ∃ err, parseExpr source = .error err ∧ FirstMisfit source err := by
  cases hblank : source.toList.all Text.isBlank with
  | true =>
      refine ⟨⟨.empty, 0, source⟩, parseExpr_of_parseTree_error ?_, hblank⟩
      rw [parseTree, if_pos hblank]
  | false =>
      have hread : ¬ source.toList.all Text.isBlank = true := by simp [hblank]
      cases hmatched : unmatched? source with
      | some o =>
          refine ⟨⟨.unbalancedParentheses, o, source⟩, parseExpr_of_parseTree_error ?_, hmatched⟩
          rw [parseTree, if_neg hread, hmatched]
      | none =>
          obtain ⟨err, herr, hmisfit⟩ := firstMisfit_of_grammarTree h
          refine ⟨err, parseExpr_of_parseTree_error ?_, hmisfit⟩
          rw [parseTree, if_neg hread, hmatched, herr]
          rfl

/-- The second of two stars does not fit. -/
theorem parseExpr_error_two_stars :
    Ungrammatical "* *" ∧ parseExpr "* *" = .error ⟨.unexpectedToken "*", 2, "* *"⟩ ∧
      FirstMisfit "* *" ⟨.unexpectedToken "*", 2, "* *"⟩ := by
  have hspells : Spells 0 "* *".toList [⟨.star, 0⟩, ⟨.star, 2⟩] := by
    have htext : "* *".toList = ['*', ' ', '*'] := by decide
    rw [htext]
    exact .mark (by decide) (.skip (by decide) (.mark (by decide) (.done _)))
  have hlex : lex "* *" = ⟨[⟨.star, 0⟩, ⟨.star, 2⟩], none⟩ := spells_iff.1 hspells
  have hparse : parseExpr "* *" = .error ⟨.unexpectedToken "*", 2, "* *"⟩ := by
    refine parseExpr_of_parseTree_error ?_
    have hmatched : unmatched? "* *" = none := by decide
    have hgrammar : grammarTree "* *" = .error ⟨.unexpectedToken "*", 2, "* *"⟩ := by
      rw [grammarTree, hlex]
      rfl
    rw [parseTree, if_neg (by decide), hmatched, hgrammar]
    rfl
  have hstars : ¬ Viable (([⟨.star, 0⟩] ++ [⟨.star, 2⟩] : List Lexeme).map Lexeme.token) :=
    not_viable_of_step? (e := ⟨[], .complete (.wildcard 0)⟩) rfl rfl
  have h : Ungrammatical "* *" := by
    intro ls hls hgrammatical
    obtain rfl : ls = [⟨.star, 0⟩, ⟨.star, 2⟩] := hls.unique hspells
    exact hstars ⟨[], hgrammatical⟩
  obtain ⟨err, herr, hmisfit⟩ := parseExpr_error_firstMisfit h
  rw [hparse] at herr
  cases herr
  exact ⟨h, hparse, hmisfit⟩

end Bibliograph.Selector
