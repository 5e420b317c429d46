import Bibliograph.Proofs.Selector.Acceptance
import Bibliograph.Proofs.Selector.Partners

/-!
# Texts with unbalanced parentheses

Parentheses in quotes do not count, and a quote that is never closed reaches to the end of the text.
A text is refused if one of the other parentheses has no partner.

Main definitions:

* `Selector.QuotedText`, `Selector.QuotesClosed`: what can stand in quotes, and the texts behind
  which a character is outside quotes;
* `Selector.parentheses`: the parentheses of a text outside quotes, with their offsets.

Main results:

* `Selector.quotesClosed_iff`: the state of the reader says whether a character is outside quotes;
* `Selector.unmatchedFrom_eq`: parentheses are matched in the list of those that count;
* `Selector.parseExpr_unbalanced_iff`: no other check reports a parenthesis;
* `Selector.unbalanced_iff_unpartnered`: **a text is refused exactly if a parenthesis has no
  partner**, and which one is reported.
-/

set_option autoImplicit false

namespace Bibliograph.Selector

/-! ### Quotes -/

/-- What can stand between double quotes: a backslash takes the next character with it. -/
inductive QuotedText : List Char → Prop
  | nil : QuotedText []
  | plain {c : Char} {cs : List Char} (hq : c ≠ '"') (hb : c ≠ '\\') (h : QuotedText cs) :
      QuotedText (c :: cs)
  | escaped {c : Char} {cs : List Char} (h : QuotedText cs) : QuotedText ('\\' :: c :: cs)

/-- The texts behind which a character is outside quotes: every quote that was opened is closed. -/
inductive QuotesClosed : List Char → Prop
  | nil : QuotesClosed []
  | plain {c : Char} {cs : List Char} (hq : c ≠ '"') (h : QuotesClosed cs) :
      QuotesClosed (c :: cs)
  | quoted {raw cs : List Char} (hraw : QuotedText raw) (h : QuotesClosed cs) :
      QuotesClosed ('"' :: (raw ++ '"' :: cs))

theorem QuotedText.foldl_next {raw : List Char} (h : QuotedText raw) :
    raw.foldl Quoting.next .quoted = .quoted := by
  induction h with
  | nil => rfl
  | plain hq hb _ ih => simpa [Quoting.next, hq, hb] using ih
  | escaped _ ih => simpa [Quoting.next] using ih

theorem QuotesClosed.foldl_next {cs : List Char} (h : QuotesClosed cs) :
    cs.foldl Quoting.next .plain = .plain := by
  induction h with
  | nil => rfl
  | plain hq _ ih => simpa [Quoting.next, hq] using ih
  | quoted hraw _ ih =>
      rw [List.foldl_cons, List.foldl_append, show Quoting.next .plain '"' = .quoted from rfl,
        hraw.foldl_next]
      exact ih

/-- From each state in which a text can be read to a place outside quotes. -/
theorem quotesClosed_of_foldl_next (cs : List Char) :
    (cs.foldl Quoting.next .plain = .plain → QuotesClosed cs) ∧
      (cs.foldl Quoting.next .quoted = .plain →
        ∃ raw rest, QuotedText raw ∧ QuotesClosed rest ∧ cs = raw ++ '"' :: rest) ∧
      (cs.foldl Quoting.next .escaped = .plain →
        ∃ c raw rest, QuotedText raw ∧ QuotesClosed rest ∧ cs = c :: (raw ++ '"' :: rest)) := by
  induction cs with
  | nil => exact ⟨fun _ => .nil, nofun, nofun⟩
  | cons c cs ih =>
      obtain ⟨hplain, hquoted, hescaped⟩ := ih
      refine ⟨fun h => ?_, fun h => ?_, fun h => ?_⟩
      · by_cases hq : c = '"'
        · subst hq
          obtain ⟨raw, rest, hraw, hrest, rfl⟩ := hquoted h
          exact .quoted hraw hrest
        · rw [List.foldl_cons, Quoting.next_plain hq] at h
          exact .plain hq (hplain h)
      · by_cases hb : c = '\\'
        · subst hb
          obtain ⟨d, raw, rest, hraw, hrest, rfl⟩ := hescaped h
          exact ⟨'\\' :: d :: raw, rest, .escaped hraw, hrest, rfl⟩
        · by_cases hq : c = '"'
          · subst hq
            exact ⟨[], cs, .nil, hplain h, rfl⟩
          · have hnext : Quoting.next .quoted c = .quoted := by simp [Quoting.next, hb, hq]
            rw [List.foldl_cons, hnext] at h
            obtain ⟨raw, rest, hraw, hrest, rfl⟩ := hquoted h
            exact ⟨c :: raw, rest, .plain hq hb hraw, hrest, rfl⟩
      · obtain ⟨raw, rest, hraw, hrest, rfl⟩ := hquoted h
        exact ⟨c, raw, rest, hraw, hrest, rfl⟩

theorem quotesClosed_iff {cs : List Char} :
    QuotesClosed cs ↔ cs.foldl Quoting.next .plain = .plain :=
  ⟨QuotesClosed.foldl_next, (quotesClosed_of_foldl_next cs).1⟩

instance (cs : List Char) : Decidable (QuotesClosed cs) :=
  decidable_of_iff _ quotesClosed_iff.symm

/-! ### The parentheses of a text -/

/-- Whether a character of a text, with its offset, is a parenthesis outside quotes. -/
def isCounted (cs : List Char) (p : Char × Nat) : Bool :=
  (p.1 = '(' ∨ p.1 = ')') ∧ QuotesClosed (cs.take p.2)

/-- The parentheses of a text outside quotes, with their offsets. -/
def parentheses (cs : List Char) : List (Char × Nat) :=
  cs.zipIdx.filter (isCounted cs)

/-- **Parentheses are matched in the list of those that count.** -/
theorem unmatchedFrom_eq (front cs : List Char) (opened : List Nat) :
    unmatchedFrom front.length (front.foldl Quoting.next .plain) opened cs =
      unmatchedIn opened ((cs.zipIdx front.length).filter (isCounted (front ++ cs))) := by
  induction cs generalizing front opened with
  | nil => simp [unmatchedFrom, unmatchedIn]
  | cons c cs ih =>
      have hstep : ∀ opened, unmatchedFrom (front.length + 1)
          ((front.foldl Quoting.next .plain).next c) opened cs =
            unmatchedIn opened
              ((cs.zipIdx (front.length + 1)).filter (isCounted (front ++ c :: cs))) := by
        intro opened
        simpa using ih (front ++ [c]) opened
      have hcounts : isCounted (front ++ c :: cs) (c, front.length) = true ↔
          (c = '(' ∨ c = ')') ∧ front.foldl Quoting.next .plain = .plain := by
        simp [isCounted, quotesClosed_iff]
      rw [List.zipIdx_cons, List.filter_cons]
      by_cases hq : front.foldl Quoting.next .plain = .plain
      · rw [hq] at hstep hcounts ⊢
        by_cases ho : c = '('
        · subst ho
          rw [if_pos (hcounts.2 ⟨Or.inl rfl, rfl⟩), unmatchedIn_opening, ← hstep]
          rfl
        · by_cases hc : c = ')'
          · subst hc
            rw [if_pos (hcounts.2 ⟨Or.inr rfl, rfl⟩)]
            cases opened with
            | nil => simp [unmatchedFrom]
            | cons i opened =>
                rw [unmatchedIn_closing_cons, ← hstep]
                rfl
          · rw [if_neg (by simp [hcounts, ho, hc]), ← hstep]
            simp [unmatchedFrom, ho, hc]
      · rw [if_neg (by simp [hcounts, hq]), ← hstep]
        simp [unmatchedFrom, hq]

theorem pairwise_parentheses (cs : List Char) :
    ((parentheses cs).map Prod.snd).Pairwise (· < ·) := by
  refine List.Pairwise.sublist (List.filter_sublist.map Prod.snd) ?_
  rw [List.zipIdx_map_snd]
  exact List.pairwise_lt_range'

theorem mem_parentheses_iff {cs : List Char} {c : Char} {o : Nat} :
    (c, o) ∈ parentheses cs ↔
      cs[o]? = some c ∧ (c = '(' ∨ c = ')') ∧ QuotesClosed (cs.take o) := by
  simp [parentheses, isCounted, List.mem_zipIdx_iff_getElem?]

theorem side_of_mem_parentheses (cs : List Char) :
    ∀ p ∈ parentheses cs, p.1 = '(' ∨ p.1 = ')' :=
  fun _ hp => (mem_parentheses_iff.1 hp).2.1

theorem unmatched?_eq (s : String) : unmatched? s = unmatchedIn [] (parentheses s.toList) :=
  unmatchedFrom_eq [] s.toList []

/-- **Which parenthesis of a text is found.** -/
theorem unmatched?_eq_some_iff (s : String) (o : Nat) :
    unmatched? s = some o ↔ ReportedAt (parentheses s.toList) o := by
  rw [unmatched?_eq]
  exact unmatchedIn_eq_some_iff (pairwise_parentheses _) (side_of_mem_parentheses _) o

theorem exists_unmatched?_iff (s : String) :
    (∃ o, unmatched? s = some o) ↔ (unpartnered (parentheses s.toList)).Nonempty := by
  constructor
  · rintro ⟨o, ho⟩
    exact ⟨o, ((unmatched?_eq_some_iff s o).1 ho).mem⟩
  · intro hne
    rw [unmatched?_eq]
    exact exists_unmatchedIn_of_nonempty (side_of_mem_parentheses _) hne

/-! ### Refused texts -/

/-- No parenthesis is blank. -/
theorem unmatched?_of_blank {s : String} (h : s.toList.all Text.isBlank = true) :
    unmatched? s = none := by
  by_contra hne
  obtain ⟨o, ho⟩ := Option.ne_none_iff_exists'.1 hne
  obtain ⟨k, c, hmem, -⟩ := (exists_unmatched?_iff s).1 ⟨o, ho⟩
  obtain ⟨hget, hc, -⟩ := mem_parentheses_iff.1 hmem
  have hblank := List.all_eq_true.1 h c (List.mem_of_getElem? hget)
  rcases hc with rfl | rfl
  · exact absurd hblank (by decide)
  · exact absurd hblank (by decide)

theorem fault_of_grammarTree_eq_error {s : String} {e : SelectorError}
    (h : grammarTree s = .error e) : e.fault ≠ .unbalancedParentheses := by
  unfold grammarTree at h
  dsimp only at h
  split at h
  · cases h
    simp
  · split at h
    · cases h
      simp
    · split at h
      · cases h
      · cases h
        simp

theorem fault_of_parseTree_eq_error {s : String} {e : SelectorError} (h : parseTree s = .error e)
    (hmatched : unmatched? s = none) : e.fault ≠ .unbalancedParentheses := by
  unfold parseTree at h
  rw [hmatched] at h
  split at h
  · cases h
    simp
  · cases hg : grammarTree s with
    | error d =>
        rw [hg] at h
        cases h
        exact fault_of_grammarTree_eq_error hg
    | ok t =>
        simp only [hg, bind, Except.bind] at h
        split at h
        · cases h
          simp
        · cases h

/-- A parenthesis is reported exactly if the matching finds it. -/
theorem parseExpr_unbalanced_iff {s : String} {e : SelectorError} :
    parseExpr s = .error e ∧ e.fault = .unbalancedParentheses ↔
      ∃ o, unmatched? s = some o ∧ e = ⟨.unbalancedParentheses, o, s⟩ := by
  constructor
  · rintro ⟨h, hfault⟩
    cases ht : parseTree s with
    | ok t =>
        have hname := isOfName_of_parseTree_eq_ok ht h
        rw [hfault] at hname
        exact hname.elim
    | error d =>
        obtain rfl : d = e := by
          rw [parseExpr_of_parseTree_error ht] at h
          exact Except.error.inj h
        cases ho : unmatched? s with
        | none => exact absurd hfault (fault_of_parseTree_eq_error ht ho)
        | some o =>
            refine ⟨o, rfl, ?_⟩
            rw [parseTree, ho] at ht
            split at ht
            · cases ht
              cases hfault
            · cases ht
              rfl
  · rintro ⟨o, ho, rfl⟩
    have hread : ¬ s.toList.all Text.isBlank = true := by
      intro hblank
      rw [unmatched?_of_blank hblank] at ho
      cases ho
    refine ⟨parseExpr_of_parseTree_error ?_, rfl⟩
    rw [parseTree, if_neg hread, ho]

theorem parseExpr_eq_unbalanced_iff (s : String) (o : Nat) :
    parseExpr s = .error ⟨.unbalancedParentheses, o, s⟩ ↔ unmatched? s = some o := by
  have h := parseExpr_unbalanced_iff (s := s) (e := ⟨.unbalancedParentheses, o, s⟩)
  simpa using h

/-- **A text is refused for a parenthesis exactly if one has no partner.**  The leftmost such
parenthesis is reported if a closing one is among them, and the last one if all of them are opening
ones; so it is the leftmost one exactly if a closing one has no partner or only one parenthesis has
none. -/
theorem unbalanced_iff_unpartnered (s : String) :
    ((∃ e, parseExpr s = .error e ∧ e.fault = .unbalancedParentheses) ↔
      (unpartnered (parentheses s.toList)).Nonempty) ∧
    (∀ o, parseExpr s = .error ⟨.unbalancedParentheses, o, s⟩ ↔
      ReportedAt (parentheses s.toList) o) ∧
    ∀ o, (parseExpr s = .error ⟨.unbalancedParentheses, o, s⟩ ∧
        IsLeast (unpartnered (parentheses s.toList)) o) ↔
      IsLeast (unpartnered (parentheses s.toList)) o ∧
        ((unpartneredClosing (parentheses s.toList)).Nonempty ∨
          unpartnered (parentheses s.toList) = {o}) := by
  refine ⟨?_, fun o => ?_, fun o => ?_⟩
  · rw [← exists_unmatched?_iff]
    constructor
    · rintro ⟨e, he⟩
      obtain ⟨o, ho, -⟩ := parseExpr_unbalanced_iff.1 he
      exact ⟨o, ho⟩
    · rintro ⟨o, ho⟩
      exact ⟨⟨.unbalancedParentheses, o, s⟩, parseExpr_unbalanced_iff.2 ⟨o, ho, rfl⟩⟩
  · exact (parseExpr_eq_unbalanced_iff s o).trans (unmatched?_eq_some_iff s o)
  · rw [parseExpr_eq_unbalanced_iff, unmatched?_eq_some_iff]
    exact reportedAt_and_isLeast_iff

/-- Of two parentheses that are never closed the second one is reported. -/
theorem second_of_two_unclosed_reported :
    parseExpr "((*" = .error ⟨.unbalancedParentheses, 1, "((*"⟩ ∧
      IsLeast (unpartnered (parentheses "((*".toList)) 0 := by
  have htext : "((*".toList = ['(', '(', '*'] := by decide
  have hlist : parentheses "((*".toList = [('(', 0), ('(', 1)] := by
    rw [htext]
    decide
  have hopen : Pending [1, 0] (parentheses "((*".toList) := by
    have hfirst : Pending [0] ([] ++ [('(', 0)]) := .opened (.balanced .nil) .nil
    rw [hlist]
    exact .opened hfirst .nil
  refine ⟨parseExpr_of_parseTree_error ?_, ?_, fun _ _ => Nat.zero_le _⟩
  · have hmatched : unmatched? "((*" = some 1 := by decide
    rw [parseTree, if_neg (by decide), hmatched]
  · exact (hopen.unpartnered_of_mem (pairwise_parentheses _) (by simp)).2

end Bibliograph.Selector
