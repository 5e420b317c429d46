import Bibliograph.Proofs.Search.Product
import Bibliograph.Search.Solve
import Mathlib.Data.List.Basic

/-!
# What a selector means

The meaning of an expression among candidates is a plain list of solutions, defined by the
constructs of the language alone: nothing is suspended, nothing is shared between runs, and nothing
is left early.  A search finds exactly this list, in order and with repetitions, and it finds it
without a failure as long as no parent link beyond the hundredth is followed.

Main definitions:

* `Selector.Expr.isNative`: the expression has no foreign part;
* `Selector.Expr.climb`: how deeply the right sides of `>` are nested;
* `Search.meaning`: the solutions of an expression among candidates.

Main results:

* `Search.view_solve`: a search finds the meaning, and does not fail;
* `Search.isMatch_of_view`: the first find decides whether an entry matches;
* `Search.solve_meaning`: **a search is the meaning of its expression**, and an entry matches
  exactly if the meaning for it is not empty.
-/

set_option autoImplicit false

namespace Bibliograph

namespace Selector.Expr

/-- Whether an expression has no foreign part. -/
def isNative : Expr → Bool
  | type _ => true
  | any => true
  | not e => e.isNative
  | and l r => l.isNative && r.isNative
  | or l r => l.isNative && r.isNative
  | parent c a => c.isNative && a.isNative
  | filter e _ => e.isNative
  | capture _ e => e.isNative
  | foreign _ => false

/-- How deeply the right sides of `>` are nested in one another. -/
def climb : Expr → Nat
  | type _ => 0
  | any => 0
  | not e => e.climb
  | and l r => max l.climb r.climb
  | or l r => max l.climb r.climb
  | parent c a => max c.climb (a.climb + 1)
  | filter e _ => e.climb
  | capture _ e => e.climb
  | foreign _ => 0

end Selector.Expr

namespace Search

open Selector

/-- The solutions of an expression among candidates. -/
def meaning : Expr → List Entry → List Solution
  | .type t, cs => (cs.filter fun c => c.type = t).map Solution.plain
  | .any, cs => cs.map Solution.plain
  | .filter x field, cs => (meaning x cs).filter fun s => s.witness.has field
  | .not x, cs => (cs.filter fun c => (meaning x [c]).isEmpty).map Solution.plain
  | .or l r, cs => meaning l cs ++ meaning r cs
  | .and l r, cs =>
      (meaning l cs).flatMap fun s =>
        (meaning r cs).map fun t => ⟨s.witness, s.captured ++ t.captured⟩
  | .parent child ancestor, cs => cs.flatMap fun c =>
      (meaning child [c]).flatMap fun s =>
        (meaning ancestor c.parents).map fun t => ⟨c, s.captured ++ t.captured⟩
  | .capture name x, cs =>
      (meaning x cs).map fun s => ⟨s.witness, s.captured ++ [(name, s.witness)]⟩
  | .foreign _, _ => []

/-- The solutions of a negation for one candidate, given those of what is negated. -/
def refusal (c : Entry) : Trail Fault Solution → Trail Fault Solution
  | .done => .ofList [Solution.plain c]
  | .failed e => .failed e
  | .found _ _ => .done

/-! ### The search, construct by construct -/

section Constructs

variable {hops : Nat} (hlimit : hops ≤ maxGenerations) (cs : List Entry)
include hlimit

theorem solve_foreign (s : String) :
    solve (.foreign s) cs hops = .failed (.foreign ⟨s⟩) := by
  exact if_neg (Nat.not_lt.2 hlimit)

theorem solve_filter (x : Expr) (field : String) :
    solve (.filter x field) cs hops =
      (solve x cs hops).filter fun s => s.witness.has field := by
  exact if_neg (Nat.not_lt.2 hlimit)

theorem solve_capture (name : String) (x : Expr) :
    solve (.capture name x) cs hops =
      (solve x cs hops).map fun s => ⟨s.witness, s.captured ++ [(name, s.witness)]⟩ := by
  exact if_neg (Nat.not_lt.2 hlimit)

theorem solve_not (x : Expr) :
    solve (.not x) cs hops = .each cs fun c => refusal c (solve x [c] hops) := by
  exact if_neg (Nat.not_lt.2 hlimit)

theorem solve_or (l r : Expr) :
    solve (.or l r) cs hops = (solve l cs hops).append fun _ => solve r cs hops := by
  exact if_neg (Nat.not_lt.2 hlimit)

theorem solve_and (l r : Expr) :
    solve (.and l r) cs hops =
      product Solution.join (solve l cs hops) (.ofTrail fun _ => solve r cs hops) := by
  exact if_neg (Nat.not_lt.2 hlimit)

theorem solve_parent (child ancestor : Expr) :
    solve (.parent child ancestor) cs hops = .each cs fun c =>
      product (fun s a => ⟨c, s.captured ++ a.captured⟩) (solve child [c] hops)
        (.ofTrail fun _ => solve ancestor c.parents (hops + 1)) := by
  exact if_neg (Nat.not_lt.2 hlimit)

end Constructs

/-! ### Searches without failure -/

/-- A negation keeps the candidate exactly if what is negated finds nothing. -/
theorem view_refusal (c : Entry) {t : Trail Fault Solution} (ht : t.ending = none) :
    (refusal c t).finds = (if t.finds.isEmpty then [Solution.plain c] else []) ∧
      (refusal c t).ending = none := by
  cases t with
  | done => exact ⟨rfl, rfl⟩
  | failed e => simp at ht
  | found s rest => exact ⟨rfl, rfl⟩

/-- Keeping some of the candidates one by one. -/
theorem flatMap_keep (cs : List Entry) (p : Entry → Bool) :
    (cs.flatMap fun c => if p c then [Solution.plain c] else []) =
      (cs.filter p).map Solution.plain := by
  induction cs with
  | nil => rfl
  | cons c cs ih => by_cases h : p c <;> simp [h, ih]

/-- **A search finds the meaning and does not fail**, as long as the parent links stay within the
limit. -/
theorem view_solve {x : Expr} (hx : x.isNative = true) (cs : List Entry) (hops : Nat)
    (hops_le : hops + x.climb ≤ maxGenerations) :
    (solve x cs hops).finds = meaning x cs ∧ (solve x cs hops).ending = none := by
  -- the hops grow on the right of `>` only, and there the nesting still to come shrinks
  have hlimit : hops ≤ maxGenerations := by omega
  induction x generalizing cs hops with
  | type t => simp [solve_type hlimit, meaning]
  | any => simp [solve_any hlimit, meaning]
  | foreign s => simp [Expr.isNative] at hx
  | filter x field ih =>
      obtain ⟨hf, he⟩ := ih hx cs hops hops_le hlimit
      rw [solve_filter hlimit, Trail.finds_filter, Trail.ending_filter, hf]
      exact ⟨rfl, he⟩
  | capture name x ih =>
      obtain ⟨hf, he⟩ := ih hx cs hops hops_le hlimit
      rw [solve_capture hlimit, Trail.finds_map, Trail.ending_map, hf]
      exact ⟨rfl, he⟩
  | or l r ihl ihr =>
      simp only [Expr.isNative, Bool.and_eq_true] at hx
      simp only [Expr.climb] at hops_le
      obtain ⟨hlf, hle⟩ := ihl hx.1 cs hops (by omega) hlimit
      obtain ⟨hrf, hre⟩ := ihr hx.2 cs hops (by omega) hlimit
      rw [solve_or hlimit, Trail.finds_append, Trail.ending_append]
      simp [hlf, hle, hrf, hre, meaning]
  | and l r ihl ihr =>
      simp only [Expr.isNative, Bool.and_eq_true] at hx
      simp only [Expr.climb] at hops_le
      obtain ⟨hlf, hle⟩ := ihl hx.1 cs hops (by omega) hlimit
      obtain ⟨hrf, hre⟩ := ihr hx.2 cs hops (by omega) hlimit
      have hjoin : ∀ s : Solution, (meaning r cs).map s.join =
          (meaning r cs).map fun t => ⟨s.witness, s.captured ++ t.captured⟩ := fun _ => rfl
      rw [solve_and hlimit, finds_product, ending_product]
      simp [hlf, hle, hrf, hre, meaning, hjoin]
  | not x ih =>
      have hone : ∀ c : Entry, (solve x [c] hops).finds = meaning x [c] ∧
          (solve x [c] hops).ending = none := fun c => ih hx [c] hops hops_le hlimit
      have hround : ∀ c ∈ cs, (refusal c (solve x [c] hops)).ending = none :=
        fun c _ => (view_refusal c (hone c).2).2
      rw [solve_not hlimit, Trail.finds_each hround]
      refine ⟨?_, Trail.ending_each hround⟩
      rw [meaning, ← flatMap_keep]
      refine List.flatMap_congr fun c _ => ?_
      rw [(view_refusal c (hone c).2).1, (hone c).1]
  | parent child ancestor ihc iha =>
      simp only [Expr.isNative, Bool.and_eq_true] at hx
      simp only [Expr.climb] at hops_le
      have hchild : ∀ c : Entry, (solve child [c] hops).finds = meaning child [c] ∧
          (solve child [c] hops).ending = none := fun c => ihc hx.1 [c] hops (by omega) hlimit
      have hancestor : ∀ c : Entry,
          (solve ancestor c.parents (hops + 1)).finds = meaning ancestor c.parents ∧
            (solve ancestor c.parents (hops + 1)).ending = none :=
        fun c => iha hx.2 c.parents (hops + 1) (by omega) (by omega)
      have hround : ∀ c ∈ cs, (product (fun s a => (⟨c, s.captured ++ a.captured⟩ : Solution))
          (solve child [c] hops)
          (.ofTrail fun _ => solve ancestor c.parents (hops + 1))).ending = none := by
        intro c _
        simp [ending_product, hchild c, hancestor c]
      rw [solve_parent hlimit, Trail.finds_each hround]
      refine ⟨?_, Trail.ending_each hround⟩
      rw [meaning]
      refine List.flatMap_congr fun c _ => ?_
      simp [finds_product, hchild c, hancestor c]

/-! ### Matching -/

/-- Whether an entry matches is decided by the first find. -/
theorem isMatch_of_view {x : Expr} {e : Entry} (he : (solve x [e] 0).ending = none) :
    isMatch x e = .ok (!(solve x [e] 0).finds.isEmpty) := by
  unfold isMatch apply solutions
  revert he
  cases solve x [e] 0 with
  | done => intro _; rfl
  | failed f => intro he; simp at he
  | found s rest => intro _; rfl

/-- Within the limit an entry matches exactly if the meaning for it alone is not empty. -/
theorem isMatch_eq_meaning {x : Expr} (hx : x.isNative = true) (hclimb : x.climb ≤ maxGenerations)
    (e : Entry) : isMatch x e = .ok (!(meaning x [e]).isEmpty) := by
  obtain ⟨hf, he⟩ := view_solve hx [e] 0 (by omega)
  rw [isMatch_of_view he, hf]

/-- **A search is the meaning of its expression.**  Among any candidates, and as many parent links
away from the entry in question as leaves room for the nesting of the expression, the search finds
the solutions of the meaning, in order and with repetitions, and does not fail.  So an entry matches
exactly if the meaning for it alone is not empty. -/
theorem solve_meaning {x : Expr} (hx : x.isNative = true) :
    (∀ (cs : List Entry) (hops : Nat), hops + x.climb ≤ maxGenerations →
      (solve x cs hops).finds = meaning x cs ∧ (solve x cs hops).ending = none) ∧
    ∀ e : Entry, x.climb ≤ maxGenerations →
      isMatch x e = .ok (!(meaning x [e]).isEmpty) := by
  refine ⟨fun cs hops h => view_solve hx cs hops h, fun e h => ?_⟩
  obtain ⟨hf, he⟩ := view_solve hx [e] 0 (by omega)
  rw [isMatch_of_view he, hf]

/-- An article in a book and in a periodical matches a conjunction over its parents of which each
parent satisfies one side. -/
theorem isMatch_conjunction_over_parents :
    (Expr.parent .any (.and (.type .book) (.type .periodical))).isNative = true ∧
      isMatch (.parent .any (.and (.type .book) (.type .periodical)))
        ⟨[0], "k", .article, [],
          [⟨[0, 0], "k", .book, [], []⟩, ⟨[0, 1], "k", .periodical, [], []⟩]⟩ = .ok true :=
  ⟨rfl, (solve_meaning rfl).2 _ (by decide)⟩

end Search

end Bibliograph
