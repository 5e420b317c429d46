import Bibliograph.Proofs.Selector.Captures
import Bibliograph.Proofs.Selector.Printing
import Bibliograph.Selector.Session
import Mathlib.Data.List.Pairwise

/-!
# Literals are read once

A session is told from the calls that were made and their replies.  The literals that it keeps are
those that were given a query, with that query; a query is made anew for a literal that is not kept
and for every other text, with a number that no query had before.  So two queries are one and the
same exactly if they were given for one literal, although queries for different texts, or for one
text that was read twice, may ask for the same.

Main definitions:

* `Selector.Session.Answers`: the replies to a call, and the session after it;
* `Selector.Session.Apart`: two replies have one and the same query only for one literal;
* `Selector.Session.Keeps`: a session keeps the literals of a history.

Main results:

* `Selector.Session.answers_call`: one call goes by the rules;
* `Selector.Session.Keeps.call`, `Selector.Session.keeps_run`: what a call keeps, and by induction
  what a run of calls keeps;
* `Selector.Session.one_query_for_each_literal`: **there is one query for each literal**, and every
  text is read as if it were the only one.
-/

set_option autoImplicit false

namespace Bibliograph.Selector.Session

/-! ### The rules -/

/-- For a session, the reply to a call, and the session after the call. -/
inductive Answers (s : Session) : Call → Reply → Session → Prop
  | known {t : String} {h : Handle} (hknown : s.literals.lookup t = some h) :
      Answers s (.select t) (.ok h) s
  | refused {c : Call} {e : SelectorError} (herror : Query.parse c.text = .error e) :
      Answers s c (.error e) s
  | selected {t : String} {q : Query} (hnew : s.literals.lookup t = none)
      (hq : Query.parse t = .ok q) :
      Answers s (.select t) (.ok ⟨s.next, q⟩) ⟨s.next + 1, (t, ⟨s.next, q⟩) :: s.literals⟩
  | parsed {t : String} {q : Query} (hq : Query.parse t = .ok q) :
      Answers s (.parse t) (.ok ⟨s.next, q⟩) ⟨s.next + 1, s.literals⟩

theorem answers_select (s : Session) (t : String) :
    s.Answers (.select t) (s.select t).1 (s.select t).2 := by
  cases hknown : s.literals.lookup t with
  | some h =>
      rw [select_of_known hknown]
      exact .known hknown
  | none =>
      rw [select_of_new hknown]
      cases hq : Query.parse t with
      | error e => exact .refused hq
      | ok q => exact .selected hknown hq

theorem answers_parse (s : Session) (t : String) :
    s.Answers (.parse t) (s.parse t).1 (s.parse t).2 := by
  rw [parse]
  cases hq : Query.parse t with
  | error e => exact .refused hq
  | ok q => exact .parsed hq

/-- **One call goes by the rules.** -/
theorem answers_call (s : Session) (c : Call) : s.Answers c (s.call c).1 (s.call c).2 := by
  cases c with
  | select t => exact answers_select s t
  | parse t => exact answers_parse s t

/-- A text that is no literal, and a literal that is refused, leave the literals as they are. -/
theorem Answers.literals_eq {s s' : Session} {c : Call} {r : Reply} (h : s.Answers c r s')
    (hc : (∃ t, c = .parse t) ∨ ∃ e, r = .error e) : s'.literals = s.literals := by
  cases h with
  | known _ => rfl
  | refused _ => rfl
  | parsed _ => rfl
  | selected _ _ => simp at hc

/-! ### Histories -/

/-- Two replies have one and the same query exactly if it was given for one literal both times. -/
def Apart (p q : Call × Reply) : Prop :=
  ∀ h h', p.2 = .ok h → q.2 = .ok h' →
    (h.number = h'.number ↔ ∃ t, p.1 = .select t ∧ q.1 = .select t)

instance : Std.Symm Apart where
  symm p q hpq h h' hq hp := by
    rw [eq_comm, hpq h' h hp hq]
    simp only [and_comm]

/-- Nothing is said of a query where none was given. -/
theorem apart_error (p : Call × Reply) (c : Call) (e : SelectorError) : Apart p (c, .error e) :=
  fun _ _ _ hq => nomatch hq

/-- The replies of a history are what is read in the texts of the calls.  The queries have numbers
below `n`, and different ones unless they were given for one literal. -/
structure Numbered (n : Nat) (history : History) : Prop where
  reads : ∀ p ∈ history, p.2.map Handle.query = Query.parse p.1.text
  number_lt : ∀ p ∈ history, ∀ h, p.2 = .ok h → h.number < n
  apart : history.Pairwise Apart

namespace Numbered

variable {n : Nat} {history : History}

/-- The history with one more call. -/
theorem snoc (hn : Numbered n history) {m : Nat} (hnm : n ≤ m) {c : Call} {r : Reply}
    (hread : r.map Handle.query = Query.parse c.text) (hlt : ∀ h, r = .ok h → h.number < m)
    (hapart : ∀ p ∈ history, Apart p (c, r)) : Numbered m (history ++ [(c, r)]) := by
  refine ⟨fun p hp => ?_, fun p hp h hh => ?_, ?_⟩
  · rcases List.mem_append.1 hp with hp | hp
    · exact hn.reads p hp
    · rw [List.mem_singleton.1 hp]
      exact hread
  · rcases List.mem_append.1 hp with hp | hp
    · exact Nat.lt_of_lt_of_le (hn.number_lt p hp h hh) hnm
    · rw [List.mem_singleton.1 hp] at hh
      exact hlt h hh
  · rw [List.pairwise_append]
    refine ⟨hn.apart, List.pairwise_singleton .., fun p hp q hq => ?_⟩
    rw [List.mem_singleton.1 hq]
    exact hapart p hp

theorem refused (hn : Numbered n history) {c : Call} {e : SelectorError}
    (herror : Query.parse c.text = .error e) : Numbered n (history ++ [(c, .error e)]) :=
  hn.snoc (Nat.le_refl n) herror.symm (fun _ he => nomatch he) fun p _ => apart_error p c e

/-- A query that was given for a literal is apart from the others, and from itself. -/
theorem apart_of_mem (hn : Numbered n history) {t : String} {h : Handle}
    (hmem : (Call.select t, .ok h) ∈ history) {p : Call × Reply} (hp : p ∈ history) :
    Apart p (.select t, .ok h) := by
  by_cases hsame : p = (.select t, .ok h)
  · subst hsame
    intro h₁ h₂ h₁h h₂h
    cases h₁h
    cases h₂h
    exact iff_of_true rfl ⟨t, rfl, rfl⟩
  · exact hn.apart.forall hp hmem hsame

/-- A query that was given for a literal before. -/
theorem again (hn : Numbered n history) {t : String} {h : Handle}
    (hmem : (Call.select t, .ok h) ∈ history) :
    Numbered n (history ++ [(.select t, .ok h)]) :=
  hn.snoc (Nat.le_refl n) (hn.reads _ hmem) (hn.number_lt _ hmem) fun _ => hn.apart_of_mem hmem

/-- A query that is made anew, for a literal only if it was not given one before. -/
theorem made (hn : Numbered n history) {c : Call} {q : Query} (hq : Query.parse c.text = .ok q)
    (hnew : ∀ t h, c = .select t → (Call.select t, .ok h) ∉ history) :
    Numbered (n + 1) (history ++ [(c, .ok ⟨n, q⟩)]) := by
  refine hn.snoc (Nat.le_succ n) hq.symm (fun h hh => ?_) ?_
  · cases hh
    exact Nat.lt_succ_self n
  · rintro ⟨c', r⟩ hp h h' rfl hh'
    cases hh'
    refine iff_of_false (Nat.ne_of_lt (hn.number_lt _ hp h rfl)) ?_
    rintro ⟨t, rfl, hc⟩
    exact hnew t h hc hp

end Numbered

/-! ### What a session keeps -/

/-- **The session keeps the literals of the history**: those that were given a query, with it.  The
numbers of its next queries are new. -/
structure Keeps (s : Session) (history : History) : Prop where
  numbered : Numbered s.next history
  lookup_iff : ∀ t h, s.literals.lookup t = some h ↔ (Call.select t, .ok h) ∈ history

theorem keeps_empty : Keeps {} [] :=
  ⟨⟨nofun, nofun, .nil⟩, fun _ _ => iff_of_false nofun List.not_mem_nil⟩

/-- What the rules keep. -/
theorem Keeps.answers {s s' : Session} {history : History} {c : Call} {r : Reply}
    (hs : s.Keeps history) (h : s.Answers c r s') : s'.Keeps (history ++ [(c, r)]) := by
  have hold : ∀ t h, s.literals.lookup t = none → (Call.select t, .ok h) ∉ history :=
    fun t h hnone hmem => by simp [(hs.lookup_iff t h).2 hmem] at hnone
  -- only a literal that is not kept changes what is kept, and no query was given for it before
  cases h with
  | @known t h hknown =>
      have hmem := (hs.lookup_iff t h).1 hknown
      refine ⟨hs.numbered.again hmem, fun t' h' => ?_⟩
      rw [hs.lookup_iff, List.mem_append, List.mem_singleton]
      constructor
      · exact Or.inl
      · rintro (hmem' | hlast)
        · exact hmem'
        · rw [hlast]
          exact hmem
  | refused herror =>
      refine ⟨hs.numbered.refused herror, fun t' h' => ?_⟩
      rw [hs.lookup_iff]
      simp
  | @selected t q hnew hq =>
      refine ⟨hs.numbered.made hq fun t' h' ht' => ?_, fun t' h' => ?_⟩
      · cases ht'
        exact hold t h' hnew
      · rw [List.lookup_cons, List.mem_append, List.mem_singleton, ← hs.lookup_iff]
        by_cases ht : t' = t
        · subst ht
          simp [hnew, eq_comm]
        · simp [beq_false_of_ne ht, ht]
  | parsed hq =>
      refine ⟨hs.numbered.made hq nofun, fun t' h' => ?_⟩
      rw [hs.lookup_iff]
      simp

/-- **What one call keeps.** -/
theorem Keeps.call {s : Session} {history : History} (hs : s.Keeps history) (c : Call) :
    (s.call c).2.Keeps (history ++ [(c, (s.call c).1)]) :=
  hs.answers (answers_call s c)

/-- **What a run of calls keeps.** -/
theorem keeps_run {s : Session} {history : History} (hs : s.Keeps history) (calls : List Call) :
    (s.run calls).2.Keeps (history ++ (s.run calls).1) :=
  runAll_invariant (P := fun past s => Keeps s past) (fun _ _ c h => h.call c) hs calls

/-! ### Queries -/

/-- What was read in a text, with the text. -/
theorem exists_of_reads {r : Reply} {t : String} (hr : r.map Handle.query = Query.parse t)
    {h : Handle} (hh : r = .ok h) : ∃ e, parseExpr t = .ok e ∧ h.query = ⟨e, t⟩ := by
  rw [hh, Query.parse_eq] at hr
  cases hparse : parseExpr t with
  | error err =>
      rw [hparse] at hr
      cases hr
  | ok e =>
      rw [hparse] at hr
      exact ⟨e, rfl, Except.ok.inj hr⟩

/-- **There is one query for each literal.**  Whatever is asked of a new session, every text is read
as if it were the only one.  Two literals are given one and the same query exactly if they are
equal, and no other two queries are the same.  Queries ask for the same exactly if their texts mean
the same expression.  The literals that were given a query are kept with it; a literal that is
refused and a text that is no literal change nothing about them. -/
theorem one_query_for_each_literal (calls : List Call) :
    ∃ history s, run {} calls = (history, s) ∧ history.map Prod.fst = calls ∧
      (∀ p ∈ history, p.2.map Handle.query = Query.parse p.1.text ∧
        ∀ h, p.2 = .ok h → h.query.source = p.1.text) ∧
      (∀ t t' h h', (Call.select t, .ok h) ∈ history → (Call.select t', .ok h') ∈ history →
        (h.number = h'.number ↔ t = t')) ∧
      history.Pairwise Apart ∧
      (∀ p ∈ history, ∀ q ∈ history, ∀ h h', p.2 = .ok h → q.2 = .ok h' →
        ∃ e e', parseExpr p.1.text = .ok e ∧ parseExpr q.1.text = .ok e' ∧
          (h.query.same h'.query = true ↔ e = e')) ∧
      (∀ t h, s.literals.lookup t = some h ↔ (Call.select t, .ok h) ∈ history) ∧
      ∀ (s : Session) (c : Call), ((∃ t, c = .parse t) ∨ ∃ e, (s.call c).1 = .error e) →
        (s.call c).2.literals = s.literals := by
  obtain ⟨hn, hlookup⟩ := keeps_run keeps_empty calls
  rw [List.nil_append] at hn hlookup
  refine ⟨_, _, rfl, map_fst_runAll call {} calls, fun p hp => ⟨hn.reads p hp, fun h hh => ?_⟩,
    fun t t' h h' ht ht' => ?_, hn.apart, fun p hp q hq h h' hh hh' => ?_, hlookup,
    fun s c => (answers_call s c).literals_eq⟩
  · obtain ⟨e, -, hquery⟩ := exists_of_reads (hn.reads p hp) hh
    rw [hquery]
  · rw [hn.apart_of_mem ht' ht h h' rfl rfl]
    simp [eq_comm]
  · obtain ⟨e, he, hquery⟩ := exists_of_reads (hn.reads p hp) hh
    obtain ⟨e', he', hquery'⟩ := exists_of_reads (hn.reads q hq) hh'
    refine ⟨e, e', he, he', ?_⟩
    rw [hquery, hquery', Query.same, beq_iff_eq]

/-- A text of a star is a query for everything. -/
theorem parse_of_star {cs : List Char} {o : Nat} (h : Writes 0 cs (Tree.wildcard o).lexemes) :
    Query.parse (String.ofList cs) = .ok ⟨.any, String.ofList cs⟩ := by
  have hfits : (Tree.wildcard o).Fits .relation := (Tree.Fits.wildcard o).loosen (by decide)
  have hheight : (Tree.wildcard o).height ≤ maxDepth := maxDepth_pos
  rw [Query.parse_eq, parseExpr_of_writes hfits h hheight .wildcard .nil]
  rfl

/-- Two literals that mean the same, one of them selected twice; between them the text of the first
one is read anew, and a literal is refused. -/
theorem one_query_for_each_literal_of_stars :
    ∃ first anew spaced again error,
      (run {} [.select "*", .parse "*", .select " *", .select ")", .select "*"]).1.map Prod.snd =
        [.ok first, .ok anew, .ok spaced, .error error, .ok again] ∧
      again.number = first.number ∧ anew.number ≠ first.number ∧ spaced.number ≠ first.number ∧
      anew.query.same first.query = true ∧ spaced.query.same first.query = true := by
  have hstar : Query.parse "*" = .ok ⟨.any, "*"⟩ := by
    have hwrites : Writes 0 ['*'] (Tree.wildcard 0).lexemes := .mark rfl (.nil _)
    exact parse_of_star hwrites
  have hspaced : Query.parse " *" = .ok ⟨.any, " *"⟩ := by
    have hwrites : Writes 0 [' ', '*'] (Tree.wildcard 1).lexemes :=
      .skip (by decide) (.mark rfl (.nil _))
    exact parse_of_star hwrites
  have hclosing : Query.parse ")" = .error ⟨.unbalancedParentheses, 0, ")"⟩ := by
    have hmatched : unmatched? ")" = some 0 := by decide
    have htree : parseTree ")" = .error ⟨.unbalancedParentheses, 0, ")"⟩ := by
      rw [parseTree, if_neg (by decide), hmatched]
    rw [Query.parse_eq, parseExpr_of_parseTree_error htree]
    rfl
  obtain ⟨history, s, hrun, -, -, hone, -⟩ := one_query_for_each_literal
    [.select "*", .parse "*", .select " *", .select ")", .select "*"]
  simp only [run, runAll, call, select, parse, make, List.lookup_nil, List.lookup_cons, String.reduceBEq,
    hstar, hspaced, hclosing, Prod.mk.injEq] at hrun ⊢
  obtain ⟨rfl, rfl⟩ := hrun
  exact ⟨_, _, _, _, _, rfl, (hone "*" "*" _ _ (by simp) (by simp)).2 rfl, by simp,
    mt (hone " *" "*" _ _ (by simp) (by simp)).1 (by decide), rfl, rfl⟩

end Bibliograph.Selector.Session
