import Bibliograph.Proofs.Selector.Acceptance

/-!
# Beginnings of selectors

A sequence of tokens is viable if it can be continued to a selector of the grammar.  Exactly these
sequences can be read: what was read can always be completed, by giving what is missing and closing
the open parentheses one after the other, and of a selector every beginning is read.

Main definitions:

* `Selector.Grammatical`: the tokens of a selector;
* `Selector.Viable`: the beginnings of such sequences.

Main results:

* `Selector.Derivation.exists_lexemes`: the offsets of the lexemes of a derivation are free;
* `Selector.Draft.exists_read_complete`: whatever is missing can be given;
* `Selector.Draft.exists_read_finish`: what is open can be closed, by induction on the open
  constructs;
* `Selector.viable_iff_read`: **the viable sequences are those that can be read**.
-/

set_option autoImplicit false

namespace Bibliograph.Selector

/-- The tokens of a selector of the grammar. -/
def Grammatical (ts : List Token) : Prop :=
  ∃ d : Derivation .relation, d.tree.lexemes.map Lexeme.token = ts

/-- A sequence of tokens with which a selector of the grammar can begin. -/
def Viable (ts : List Token) : Prop :=
  ∃ more : List Token, Grammatical (ts ++ more)

/-! ### Offsets -/

/-- Lexemes with the tokens of others begin like them, at an offset of their own. -/
theorem exists_cons_of_tokens {l : Lexeme} {ls ms : List Lexeme}
    (h : ms.map Lexeme.token = (l :: ls).map Lexeme.token) :
    ∃ o ns, ms = ⟨l.token, o⟩ :: ns ∧ ns.map Lexeme.token = ls.map Lexeme.token := by
  rw [List.map_cons, List.map_eq_cons_iff] at h
  obtain ⟨⟨_, o⟩, ns, rfl, rfl, hns⟩ := h
  exact ⟨o, ns, rfl, hns⟩

/-- Lexemes with the tokens of two parts have two parts. -/
theorem exists_append_of_tokens {ls ls' ms : List Lexeme}
    (h : ms.map Lexeme.token = (ls ++ ls').map Lexeme.token) :
    ∃ ns ns', ms = ns ++ ns' ∧ ns.map Lexeme.token = ls.map Lexeme.token ∧
      ns'.map Lexeme.token = ls'.map Lexeme.token := by
  rwa [List.map_append, List.map_eq_append_iff] at h

/-- Lexemes with the tokens of a list of field names are such a list. -/
theorem FieldList.exists_lexemes (f : FieldList) {ls : List Lexeme}
    (h : ls.map Lexeme.token = f.lexemes.map Lexeme.token) :
    ∃ g : FieldList, g.lexemes = ls := by
  obtain ⟨first, more⟩ := f
  obtain ⟨o, ms, rfl, hms⟩ := exists_cons_of_tokens h
  suffices hmore : ∃ more' : List (Nat × NameAt),
      (more'.flatMap fun m => [⟨.comma, m.1⟩, m.2.lexeme]) = ms by
    obtain ⟨more', rfl⟩ := hmore
    exact ⟨⟨⟨first.name, o⟩, more'⟩, rfl⟩
  clear h
  induction more generalizing ms with
  | nil => exact ⟨[], (List.map_eq_nil_iff.1 hms).symm⟩
  | cons m more ih =>
      obtain ⟨comma, _, rfl, hname⟩ := exists_cons_of_tokens hms
      obtain ⟨n, ns, rfl, hns⟩ := exists_cons_of_tokens hname
      obtain ⟨more', rfl⟩ := ih ns hns
      exact ⟨(comma, ⟨m.2.name, n⟩) :: more', rfl⟩

/-- **The offsets of the lexemes of a derivation are free.** -/
theorem Derivation.exists_lexemes {s : Stratum} (d : Derivation s) {ls : List Lexeme}
    (h : ls.map Lexeme.token = d.tree.lexemes.map Lexeme.token) :
    ∃ d' : Derivation s, d'.tree.lexemes = ls := by
  induction d generalizing ls with
  | ofAlternation d ih =>
      obtain ⟨d', hd⟩ := ih h
      exact ⟨.ofAlternation d', hd⟩
  | ofConjunction d ih =>
      obtain ⟨d', hd⟩ := ih h
      exact ⟨.ofConjunction d', hd⟩
  | ofNegated d ih =>
      obtain ⟨d', hd⟩ := ih h
      exact ⟨.ofNegated d', hd⟩
  | ofFiltered d ih =>
      obtain ⟨d', hd⟩ := ih h
      exact ⟨.ofFiltered d', hd⟩
  | ofCaptured d ih =>
      obtain ⟨d', hd⟩ := ih h
      exact ⟨.ofCaptured d', hd⟩
  | ofPrimary d ih =>
      obtain ⟨d', hd⟩ := ih h
      exact ⟨.ofPrimary d', hd⟩
  | parent child mark ancestor ihc iha =>
      obtain ⟨ls, _, rfl, hc, hmark⟩ := exists_append_of_tokens h
      obtain ⟨o, ms, rfl, ha⟩ := exists_cons_of_tokens hmark
      obtain ⟨c, rfl⟩ := ihc hc
      obtain ⟨a, rfl⟩ := iha ha
      exact ⟨.parent c o a, rfl⟩
  | alternative left mark right ihl ihr =>
      obtain ⟨ls, _, rfl, hl, hmark⟩ := exists_append_of_tokens h
      obtain ⟨o, ms, rfl, hr⟩ := exists_cons_of_tokens hmark
      obtain ⟨l, rfl⟩ := ihl hl
      obtain ⟨r, rfl⟩ := ihr hr
      exact ⟨.alternative l o r, rfl⟩
  | conjunction left mark right ihl ihr =>
      obtain ⟨ls, _, rfl, hl, hmark⟩ := exists_append_of_tokens h
      obtain ⟨o, ms, rfl, hr⟩ := exists_cons_of_tokens hmark
      obtain ⟨l, rfl⟩ := ihl hl
      obtain ⟨r, rfl⟩ := ihr hr
      exact ⟨.conjunction l o r, rfl⟩
  | negation bang inner ih =>
      obtain ⟨o, ms, rfl, hinner⟩ := exists_cons_of_tokens h
      obtain ⟨d', rfl⟩ := ih hinner
      exact ⟨.negation o d', rfl⟩
  | filter inner opening fields closing ih =>
      obtain ⟨ls, _, rfl, hinner, hbracket⟩ := exists_append_of_tokens h
      obtain ⟨o, _, rfl, hlist⟩ := exists_cons_of_tokens hbracket
      obtain ⟨ms, _, rfl, hf, hclosing⟩ := exists_append_of_tokens hlist
      obtain ⟨c, _, rfl, hnil⟩ := exists_cons_of_tokens hclosing
      obtain rfl := List.map_eq_nil_iff.1 hnil
      obtain ⟨d', rfl⟩ := ih hinner
      obtain ⟨f, rfl⟩ := fields.exists_lexemes hf
      exact ⟨.filter d' o f c, rfl⟩
  | capture name colon inner ih =>
      obtain ⟨n, _, rfl, hcolon⟩ := exists_cons_of_tokens h
      obtain ⟨o, ms, rfl, hinner⟩ := exists_cons_of_tokens hcolon
      obtain ⟨d', rfl⟩ := ih hinner
      exact ⟨.capture ⟨name.name, n⟩ o d', rfl⟩
  | type name offset =>
      obtain ⟨o, _, rfl, hnil⟩ := exists_cons_of_tokens h
      obtain rfl := List.map_eq_nil_iff.1 hnil
      exact ⟨.type name o, rfl⟩
  | wildcard star =>
      obtain ⟨o, _, rfl, hnil⟩ := exists_cons_of_tokens h
      obtain rfl := List.map_eq_nil_iff.1 hnil
      exact ⟨.wildcard o, rfl⟩
  | group opening inner closing ih =>
      obtain ⟨o, _, rfl, hrest⟩ := exists_cons_of_tokens h
      obtain ⟨ms, _, rfl, hinner, hclosing⟩ := exists_append_of_tokens hrest
      obtain ⟨c, _, rfl, hnil⟩ := exists_cons_of_tokens hclosing
      obtain rfl := List.map_eq_nil_iff.1 hnil
      obtain ⟨d', rfl⟩ := ih hinner
      exact ⟨.group o d' c, rfl⟩

/-! ### Completing a draft -/

/-- A primary that was read leaves an operand, and opens nothing. -/
theorem Draft.exists_afterPrimary (fs : List Frame) (t : Tree) :
    ∃ gs u, Draft.afterPrimary fs t = ⟨gs, .complete u⟩ ∧ gs.length ≤ fs.length := by
  cases fs with
  | nil => exact ⟨_, _, rfl, Nat.le_refl _⟩
  | cons f fs =>
      cases f with
      | capture name colon => exact ⟨_, _, rfl, Nat.le_succ _⟩
      | _ => exact ⟨_, _, rfl, Nat.le_refl _⟩

/-- Whatever is missing can be given: after a few lexemes an operand has been read. -/
theorem Draft.exists_read_complete (d : Draft) :
    ∃ ls fs t, d.read ls = .ok ⟨fs, .complete t⟩ := by
  obtain ⟨fs, focus⟩ := d
  cases focus with
  | operand => exact ⟨[⟨.star, 0⟩], fs, .wildcard 0, rfl⟩
  | name text offset =>
      -- a name alone may still be that of a capture; with a filter it is an operand
      exact ⟨[⟨.openBracket, 0⟩, ⟨.name (.bare "x"), 0⟩, ⟨.closeBracket, 0⟩], fs, _, rfl⟩
  | quoted raw offset => exact ⟨[⟨.colon, 0⟩, ⟨.star, 0⟩], fs, _, rfl⟩
  | primary =>
      obtain ⟨gs, u, hu, -⟩ := Draft.exists_afterPrimary fs (.wildcard 0)
      refine ⟨[⟨.star, 0⟩], gs, u, ?_⟩
      rw [← hu]
      rfl
  | complete t => exact ⟨[], fs, t, rfl⟩
  | firstField t opening =>
      exact ⟨[⟨.name (.bare "x"), 0⟩, ⟨.closeBracket, 0⟩], fs, _, rfl⟩
  | fields t opening list => exact ⟨[⟨.closeBracket, 0⟩], fs, _, rfl⟩
  | nextField t opening list comma =>
      exact ⟨[⟨.name (.bare "x"), 0⟩, ⟨.closeBracket, 0⟩], fs, _, rfl⟩

/-- Closing operators opens nothing. -/
theorem length_close_le (σ : Strength) (fs : List Frame) (t : Tree) :
    (close σ fs t).1.length ≤ fs.length := by
  induction fs generalizing t with
  | nil => exact Nat.le_refl _
  | cons f fs ih =>
      cases hf : f.operator? with
      | none =>
          simp [close_of_not_operator hf]
      | some op =>
          obtain ⟨s, build⟩ := op
          rw [close_of_operator hf]
          split
          · exact Nat.le_succ_of_le (ih (build t))
          · exact Nat.le_refl _

/-- Closing all operators leaves none of them in front. -/
theorem operator?_of_close_parent {fs gs : List Frame} {t u : Tree} {f : Frame}
    (h : close .parent fs t = (f :: gs, u)) : f.operator? = none := by
  induction fs generalizing t with
  | nil => cases h
  | cons g fs ih =>
      cases hg : g.operator? with
      | none =>
          rw [close_of_not_operator hg] at h
          cases h
          exact hg
      | some op =>
          obtain ⟨s, build⟩ := op
          have hloose : Strength.parent.rank ≤ s.rank := Nat.zero_le _
          rw [close_of_operator hg, if_pos hloose] at h
          exact ih h

/-- Where all operators are closed and something is open still, it is a parenthesis. -/
theorem exists_eq_group {fs gs : List Frame} {t u : Tree} {f : Frame}
    (h : close .parent fs t = (f :: gs, u)) (hrank : (awaited (f :: gs)).rank ≤ 0) :
    ∃ opening, f = .group opening := by
  have hoperator := operator?_of_close_parent h
  cases f with
  | group opening => exact ⟨opening, rfl⟩
  | capture name colon => simp [awaited, Frame.hole, Stratum.rank] at hrank
  | _ => cases hoperator

/-- **What is open can be closed.**  Behind an operand all operators are closed; then a parenthesis
is open, or nothing is. -/
theorem Draft.exists_read_finish {fs : List Frame} {t : Tree}
    (hd : (Draft.mk fs (.complete t)).Sound) :
    ∃ ls e u, (Draft.mk fs (.complete t)).read ls = .ok e ∧ e.finish? = some u := by
  -- each closing parenthesis leaves fewer open constructs
  induction hn : fs.length using Nat.strongRecOn generalizing fs t with
  | ind n ih =>
    obtain ⟨hnested, hp, ht⟩ := hd
    cases hclose : close .parent fs t with | mk gs u =>
    obtain ⟨hnested', hu, hrank, -⟩ :=
      close_sound hnested hp (ht.of_awaited hp) (ht.loosen (by decide)) hclose
    cases gs with
    | nil => exact ⟨[], _, u, rfl, Draft.finish?_of_operand? rfl hclose⟩
    | cons f gs =>
        obtain ⟨opening, rfl⟩ := exists_eq_group hclose hrank
        obtain ⟨hs, v, hafter, hle⟩ := Draft.exists_afterPrimary gs (.group opening u 0)
        have hlength : hs.length < n := by
          have hfewer := length_close_le .parent fs t
          rw [hclose, hn, List.length_cons] at hfewer
          omega
        have hstep : (Draft.mk fs (.complete t)).step? ⟨.closeParen, 0⟩ =
            some ⟨hs, .complete v⟩ := by
          rw [Draft.step?_of_operand? rfl (by simp), Draft.afterOperand?, ← hafter]
          simp only [hclose]
        obtain ⟨hsound, -⟩ := Draft.afterPrimary_sound hnested'.2.2 (hu.group opening 0)
        rw [hafter] at hsound
        obtain ⟨ls, e, w, hread, hfinish⟩ := ih hs.length hlength hsound rfl
        refine ⟨⟨.closeParen, 0⟩ :: ls, e, w, ?_, hfinish⟩
        rw [Draft.read, hstep]
        exact hread

/-! ### Viable sequences -/

/-- What was read can be completed. -/
theorem viable_of_read {ls : List Lexeme} {e : Draft}
    (h : (Draft.mk [] .operand).read ls = .ok e) : Viable (ls.map Lexeme.token) := by
  obtain ⟨ms, fs, t, hms⟩ := e.exists_read_complete
  have hcomplete : (Draft.mk [] .operand).read (ls ++ ms) = .ok ⟨fs, .complete t⟩ := by
    rw [Draft.read_append_of_ok h, hms]
  obtain ⟨hsound, -⟩ := Draft.read_sound Draft.sound_start hcomplete
  obtain ⟨ns, e', u, hns, hfinish⟩ := Draft.exists_read_finish hsound
  have hall : (Draft.mk [] .operand).read (ls ++ ms ++ ns) = .ok e' := by
    rw [Draft.read_append_of_ok hcomplete, hns]
  obtain ⟨hsound', hlexemes⟩ := Draft.read_sound Draft.sound_start hall
  obtain ⟨⟨d, rfl⟩, htree⟩ := Draft.finish?_sound hsound' hfinish
  refine ⟨(ms ++ ns).map Lexeme.token, d, ?_⟩
  rw [htree, hlexemes, ← List.map_append, List.append_assoc]
  rfl

/-- Of a selector every beginning is read. -/
theorem exists_read_of_viable {ls : List Lexeme} (h : Viable (ls.map Lexeme.token)) :
    ∃ e, (Draft.mk [] .operand).read ls = .ok e := by
  obtain ⟨more, d, hd⟩ := h
  have htokens : (ls ++ more.map fun t => (⟨t, 0⟩ : Lexeme)).map Lexeme.token =
      d.tree.lexemes.map Lexeme.token := by
    rw [hd, List.map_append, List.map_map]
    simp [Function.comp_def]
  obtain ⟨d', hd'⟩ := d.exists_lexemes htokens
  obtain ⟨e, hread, -⟩ := d'.read_start
  rw [hd', Draft.read_append] at hread
  cases hls : (Draft.mk [] .operand).read ls with
  | ok e' => exact ⟨e', rfl⟩
  | error l =>
      rw [hls] at hread
      cases hread

/-- **The viable sequences are those that can be read.** -/
theorem viable_iff_read {ls : List Lexeme} :
    Viable (ls.map Lexeme.token) ↔ ∃ e, (Draft.mk [] .operand).read ls = .ok e :=
  ⟨exists_read_of_viable, fun ⟨_, h⟩ => viable_of_read h⟩

end Bibliograph.Selector
