import Bibliograph.Proofs.Search.Meaning

/-!
# The laws of negation, alternative and conjunction

Whether an entry matches is decided by the first find of a search, and a search may fail before it
has one.  So there are three kinds of verdict: yes, no and a failure.  A negation, an alternative
and a conjunction ask their left side first, and their right side only if the left one leaves the
question open; the failure of a side that is not asked does not show.  With this order of asking the
laws of Boolean algebra hold of the verdicts themselves, failures included, except that the two
sides may be exchanged only where neither fails.

Main definitions:

* `Search.Verdict`: yes, no or a failure, with its negation, alternative and conjunction;
* `Trail.verdict`: the verdict of the first find of a trail.

Main results:

* `Trail.verdict_append`, `Search.verdict_product`, `Search.verdict_refusal`: the verdict of each
  way to put trails together;
* `Search.isMatch_not`, `Search.isMatch_or`, `Search.isMatch_and`, `Search.isMatch_parent`: whether
  an entry matches an operator, by the verdicts of its sides;
* `Search.isMatch_boolean_laws`: **the Boolean laws of selectors**, failures included.
-/

set_option autoImplicit false

namespace Bibliograph

namespace Search

/-- Yes, no, or the failure that came first. -/
abbrev Verdict (ε : Type) := Except ε Bool

namespace Verdict

variable {ε : Type}

/-- The opposite verdict; a failure stays. -/
def not : Verdict ε → Verdict ε
  | .error e => .error e
  | .ok m => .ok !m

/-- The second verdict is asked for if the first one is no. -/
def or : Verdict ε → Verdict ε → Verdict ε
  | .error e, _ => .error e
  | .ok true, _ => .ok true
  | .ok false, v => v

/-- The second verdict is asked for if the first one is yes. -/
def and : Verdict ε → Verdict ε → Verdict ε
  | .error e, _ => .error e
  | .ok true, v => v
  | .ok false, _ => .ok false

theorem not_not (u : Verdict ε) : u.not.not = u := by
  cases u with
  | error e => rfl
  | ok m => cases m <;> rfl

/-- A refused alternative refuses both sides in turn. -/
theorem not_or (u v : Verdict ε) : (u.or v).not = u.not.and v.not := by
  cases u with
  | error e => rfl
  | ok m => cases m <;> rfl

/-- A refused conjunction refuses one of its sides. -/
theorem not_and (u v : Verdict ε) : (u.and v).not = u.not.or v.not := by
  cases u with
  | error e => rfl
  | ok m => cases m <;> rfl

theorem or_assoc (u v w : Verdict ε) : (u.or v).or w = u.or (v.or w) := by
  cases u with
  | error e => rfl
  | ok m => cases m <;> rfl

theorem and_assoc (u v w : Verdict ε) : (u.and v).and w = u.and (v.and w) := by
  cases u with
  | error e => rfl
  | ok m => cases m <;> rfl

/-- What is asked again for the second side says the same again. -/
theorem and_and_left (u v w : Verdict ε) : u.and (v.and w) = (u.and v).and (u.and w) := by
  cases u with
  | error e => rfl
  | ok m => cases m <;> rfl

/-- The left side is asked again for the second alternative, and says the same again. -/
theorem and_or_left (u v w : Verdict ε) : u.and (v.or w) = (u.and v).or (u.and w) := by
  cases u with
  | error e => rfl
  | ok m => cases m <;> rfl

theorem or_false (u : Verdict ε) : u.or (.ok false) = u := by
  cases u with
  | error e => rfl
  | ok m => cases m <;> rfl

/-- Two sides that do not fail may be exchanged. -/
theorem or_comm_of_ok (m n : Bool) : or (.ok m : Verdict ε) (.ok n) = or (.ok n) (.ok m) := by
  cases m <;> cases n <;> rfl

theorem and_comm_of_ok (m n : Bool) : and (.ok m : Verdict ε) (.ok n) = and (.ok n) (.ok m) := by
  cases m <;> cases n <;> rfl

end Verdict

end Search

/-! ### The first find -/

namespace Trail

variable {ε α : Type}

/-- Whether a trail finds anything; a failure counts if it comes before the first find. -/
def verdict : Trail ε α → Search.Verdict ε
  | done => .ok false
  | failed e => .error e
  | found _ _ => .ok true

/-- A trail that is followed by another one. -/
theorem verdict_append (t : Trail ε α) (next : Unit → Trail ε α) :
    (t.append next).verdict = t.verdict.or (next ()).verdict := by
  cases t <;> rfl

theorem verdict_each_singleton {β : Type} (b : β) (f : β → Trail ε α) :
    (each [b] f).verdict = (f b).verdict := by
  rw [each, verdict_append]
  exact Search.Verdict.or_false _

theorem verdict_eq_ok_true_iff {t : Trail ε α} : t.verdict = .ok true ↔ ∃ a, a ∈ t.finds := by
  cases t with
  | done => simp [verdict]
  | failed e => simp [verdict]
  | found a rest => simp [verdict]

theorem verdict_eq_ok_false_iff {t : Trail ε α} :
    t.verdict = .ok false ↔ t.finds = [] ∧ t.ending = none := by
  cases t <;> simp [verdict]

theorem ending_of_verdict_eq_error {t : Trail ε α} {e : ε} (h : t.verdict = .error e) :
    t.ending = some e := by
  cases t with
  | done => cases h
  | failed d =>
      cases h
      rfl
  | found a rest => cases h

theorem first_map_isSome (t : Trail ε α) : t.first.map Option.isSome = t.verdict := by
  cases t <;> rfl

end Trail

namespace Search

open Selector

/-- A product finds something if its left side does and then the replay does. -/
theorem verdict_product {ε α β γ : Type} (f : α → β → γ) (t : Trail ε α)
    (u : Unit → Trail ε β) :
    (product f t (.ofTrail u)).verdict = t.verdict.and (u ()).verdict := by
  cases t with
  | done => rfl
  | failed e => rfl
  | found a rest =>
      rw [product_found, Trail.verdict_append, Replay.finds_ofTrail, Replay.onward,
        Replay.ending_ofTrail]
      cases u () with
      | done => rfl
      | failed e => rfl
      | found b more => rfl

/-- A negation is decided by the first find of what is negated. -/
theorem verdict_refusal (c : Entry) (t : Trail Fault Solution) :
    (refusal c t).verdict = t.verdict.not := by
  cases t <;> rfl

/-! ### Matching -/

theorem isMatch_eq_verdict (x : Expr) (e : Entry) : isMatch x e = (solve x [e] 0).verdict := by
  have hfirst : isMatch x e = (solutions x e).first.map Option.isSome := by
    unfold isMatch apply
    cases (solutions x e).first with
    | error f => rfl
    | ok s => cases s <;> rfl
  rw [hfirst, Trail.first_map_isSome, solutions]

section Operators

variable (a b : Expr) (e : Entry)

theorem isMatch_not : isMatch (.not a) e = Verdict.not (isMatch a e) := by
  rw [isMatch_eq_verdict, isMatch_eq_verdict, solve_not (Nat.zero_le _),
    Trail.verdict_each_singleton, verdict_refusal]

theorem isMatch_or : isMatch (.or a b) e = Verdict.or (isMatch a e) (isMatch b e) := by
  rw [isMatch_eq_verdict, isMatch_eq_verdict, isMatch_eq_verdict, solve_or (Nat.zero_le _),
    Trail.verdict_append]

theorem isMatch_and : isMatch (.and a b) e = Verdict.and (isMatch a e) (isMatch b e) := by
  rw [isMatch_eq_verdict, isMatch_eq_verdict, isMatch_eq_verdict, solve_and (Nat.zero_le _),
    verdict_product]

/-- The side of the entry is asked first, and then the other one among its parents. -/
theorem isMatch_parent :
    isMatch (.parent a b) e = Verdict.and (isMatch a e) (solve b e.parents 1).verdict := by
  rw [isMatch_eq_verdict, isMatch_eq_verdict, solve_parent (Nat.zero_le _),
    Trail.verdict_each_singleton, verdict_product]

end Operators

/-- **The Boolean laws of selectors.**  Whatever the expressions are, foreign parts and too many
parent links included, the two sides of each law match the same entries and fail with the same
failure.  The sides of an alternative and of a conjunction may be exchanged where neither fails. -/
theorem isMatch_boolean_laws (a b c : Expr) (e : Entry) :
    isMatch (.not (.not a)) e = isMatch a e ∧
    isMatch (.not (.or a b)) e = isMatch (.and (.not a) (.not b)) e ∧
    isMatch (.not (.and a b)) e = isMatch (.or (.not a) (.not b)) e ∧
    isMatch (.or (.or a b) c) e = isMatch (.or a (.or b c)) e ∧
    isMatch (.and (.and a b) c) e = isMatch (.and a (.and b c)) e ∧
    isMatch (.and a (.or b c)) e = isMatch (.or (.and a b) (.and a c)) e ∧
    ∀ m n : Bool, isMatch a e = .ok m → isMatch b e = .ok n →
      isMatch (.or a b) e = isMatch (.or b a) e ∧
        isMatch (.and a b) e = isMatch (.and b a) e := by
  simp only [isMatch_not, isMatch_or, isMatch_and]
  refine ⟨Verdict.not_not _, Verdict.not_or _ _, Verdict.not_and _ _, Verdict.or_assoc _ _ _,
    Verdict.and_assoc _ _ _, Verdict.and_or_left _ _ _, ?_⟩
  intro m n ha hb
  rw [ha, hb]
  exact ⟨Verdict.or_comm_of_ok m n, Verdict.and_comm_of_ok m n⟩

/-- An article matches the alternative of articles and books, in either order. -/
theorem isMatch_boolean_laws_of_article :
    let article : Entry := ⟨[0], "a", .article, [], []⟩
    isMatch (.type .article) article = .ok true ∧ isMatch (.type .book) article = .ok false ∧
      isMatch (.or (.type .article) (.type .book)) article =
        isMatch (.or (.type .book) (.type .article)) article := by
  intro article
  have harticle : isMatch (.type .article) article = .ok true := rfl
  have hbook : isMatch (.type .book) article = .ok false := rfl
  obtain ⟨-, -, -, -, -, -, hcomm⟩ :=
    isMatch_boolean_laws (.type .article) (.type .book) (.foreign "x") article
  exact ⟨harticle, hbook, (hcomm true false harticle hbook).1⟩

end Search

end Bibliograph
