import Bibliograph.Proofs.Search.Limit
import Bibliograph.Proofs.Search.Route
import Bibliograph.Proofs.Search.Verdict

/-!
# What `>` asks of the parents

On the right of `>` an expression is searched among all parents at once.  Only a conjunction makes
use of it: each of its sides may be satisfied by another parent.  What has every conjunction inside
a negation or inside a `>` of its own is satisfied by several candidates together exactly if one of
them satisfies it alone, and a conjunction asks for its two sides one after the other.

Main definitions:

* `Selector.Expr.andsEnclosed`: every conjunction is inside a negation or inside `>`.

Main results:

* `Search.exists_mem_finds_single`, `Search.mem_finds_of_single`, `Search.ending_single`: what a
  search among candidates finds is what the searches for each of them alone find;
* `Search.verdict_iff_exists_single`: so one candidate decides the verdict among all of them;
* `Search.isMatch_parent_among_parents`: **one parent satisfies what has no conjunction of its own,
  and two may share a conjunction**.
-/

set_option autoImplicit false

namespace Bibliograph

/-- Whether every conjunction is inside a negation or inside a side of `>`. -/
def Selector.Expr.andsEnclosed : Selector.Expr → Bool
  | type _ => true
  | any => true
  | not _ => true
  | and _ _ => false
  | or l r => l.andsEnclosed && r.andsEnclosed
  | parent _ _ => true
  | filter e _ => e.andsEnclosed
  | capture _ e => e.andsEnclosed
  | foreign _ => true

/-! ### One item, and several -/

namespace Trail

variable {ε α β : Type}

theorem mem_finds_each_singleton {a : α} {f : α → Trail ε β} {b : β} :
    b ∈ (each [a] f).finds ↔ b ∈ (f a).finds := by
  simp [each, mem_finds_append_iff]

theorem ending_each_singleton (a : α) (f : α → Trail ε β) :
    (each [a] f).ending = (f a).ending := by
  simp [each, ending_append]

theorem ending_each_eq_none_iff {as : List α} {f : α → Trail ε β} :
    (each as f).ending = none ↔ ∀ a ∈ as, (f a).ending = none := by
  induction as with
  | nil => simp [each]
  | cons a as ih => simp [each, ending_append, ih]

theorem mem_finds_each_iff {as : List α} {f : α → Trail ε β} (h : (each as f).ending = none)
    {b : β} : b ∈ (each as f).finds ↔ ∃ a ∈ as, b ∈ (f a).finds := by
  rw [finds_each (ending_each_eq_none_iff.1 h), List.mem_flatMap]

end Trail

namespace Search

open Selector

/-! ### One candidate, and several -/

section Candidates

variable {x : Expr} {cs : List Entry} {hops : Nat}

/-- A search that does not fail stays within the limit. -/
theorem hops_le_of_ending (h : (solve x cs hops).ending = none) : hops ≤ maxGenerations := by
  by_contra hfar
  rw [solve_tooFar (Nat.not_le.1 hfar)] at h
  cases h

/-- If the search among all candidates does not fail, then none for one of them does. -/
theorem ending_single (hx : x.andsEnclosed = true) (h : (solve x cs hops).ending = none)
    {c : Entry} (hc : c ∈ cs) : (solve x [c] hops).ending = none := by
  have hlimit := hops_le_of_ending h
  induction x with
  | type t => simp [solve_type hlimit]
  | any => simp [solve_any hlimit]
  | and l r _ _ => cases hx
  | filter x field ih =>
      rw [solve_filter hlimit, Trail.ending_filter] at h ⊢
      exact ih hx h
  | capture name x ih =>
      rw [solve_capture hlimit, Trail.ending_map] at h ⊢
      exact ih hx h
  | not x _ =>
      rw [solve_not hlimit] at h ⊢
      rw [Trail.ending_each_singleton]
      exact Trail.ending_each_eq_none_iff.1 h c hc
  | parent child ancestor _ _ =>
      rw [solve_parent hlimit] at h ⊢
      rw [Trail.ending_each_singleton]
      exact Trail.ending_each_eq_none_iff.1 h c hc
  | or l r ihl ihr =>
      rw [Expr.andsEnclosed, Bool.and_eq_true] at hx
      rw [solve_or hlimit, Trail.ending_append, Option.or_eq_none_iff] at h ⊢
      exact ⟨ihl hx.1 h.1, ihr hx.2 h.2⟩
  | foreign s =>
      rw [solve_foreign hlimit] at h
      cases h

/-- **What is found among all candidates is found for one of them alone**, even if the search fails
later on. -/
theorem exists_mem_finds_single (hx : x.andsEnclosed = true) {s : Solution}
    (h : s ∈ (solve x cs hops).finds) : ∃ c ∈ cs, s ∈ (solve x [c] hops).finds := by
  have hlimit := hops_le_of_mem_finds h
  induction x generalizing s with
  | type t =>
      rw [solve_type hlimit, Trail.finds_ofList] at h
      obtain ⟨c, hc, rfl⟩ := List.mem_map.1 h
      obtain ⟨hmem, ht⟩ := List.mem_filter.1 hc
      refine ⟨c, hmem, ?_⟩
      rw [solve_type hlimit, Trail.finds_ofList]
      exact List.mem_map.2 ⟨c, List.mem_filter.2 ⟨List.mem_singleton_self c, ht⟩, rfl⟩
  | any =>
      rw [solve_any hlimit, Trail.finds_ofList] at h
      obtain ⟨c, hc, rfl⟩ := List.mem_map.1 h
      refine ⟨c, hc, ?_⟩
      rw [solve_any hlimit, Trail.finds_ofList]
      exact List.mem_singleton_self _
  | and l r _ _ => cases hx
  | filter x field ih =>
      rw [solve_filter hlimit, Trail.finds_filter] at h
      obtain ⟨hs, hfield⟩ := List.mem_filter.1 h
      obtain ⟨c, hc, hfind⟩ := ih hx hs
      refine ⟨c, hc, ?_⟩
      rw [solve_filter hlimit, Trail.finds_filter]
      exact List.mem_filter.2 ⟨hfind, hfield⟩
  | capture name x ih =>
      rw [solve_capture hlimit, Trail.finds_map] at h
      obtain ⟨t, ht, rfl⟩ := List.mem_map.1 h
      obtain ⟨c, hc, hfind⟩ := ih hx ht
      refine ⟨c, hc, ?_⟩
      rw [solve_capture hlimit, Trail.finds_map]
      exact List.mem_map.2 ⟨t, hfind, rfl⟩
  | not x _ =>
      rw [solve_not hlimit] at h
      obtain ⟨c, hc, hs⟩ := Trail.mem_finds_each h
      refine ⟨c, hc, ?_⟩
      rw [solve_not hlimit]
      exact Trail.mem_finds_each_singleton.2 hs
  | parent child ancestor _ _ =>
      rw [solve_parent hlimit] at h
      obtain ⟨c, hc, hs⟩ := Trail.mem_finds_each h
      refine ⟨c, hc, ?_⟩
      rw [solve_parent hlimit]
      exact Trail.mem_finds_each_singleton.2 hs
  | or l r ihl ihr =>
      rw [Expr.andsEnclosed, Bool.and_eq_true] at hx
      rw [solve_or hlimit] at h
      rcases Trail.mem_finds_append_iff.1 h with hl | ⟨hending, hr⟩
      · obtain ⟨c, hc, hfind⟩ := ihl hx.1 hl
        refine ⟨c, hc, ?_⟩
        rw [solve_or hlimit]
        exact Trail.mem_finds_append_iff.2 (Or.inl hfind)
      · -- the right side is asked for one candidate as well, since the left side does not fail there
        obtain ⟨c, hc, hfind⟩ := ihr hx.2 hr
        refine ⟨c, hc, ?_⟩
        rw [solve_or hlimit]
        exact Trail.mem_finds_append_iff.2 (Or.inr ⟨ending_single hx.1 hending hc, hfind⟩)
  | foreign s =>
      rw [solve_foreign hlimit] at h
      cases h

/-- What is found for one candidate alone is found among all of them, unless the search fails. -/
theorem mem_finds_of_single (hx : x.andsEnclosed = true) (h : (solve x cs hops).ending = none)
    {c : Entry} (hc : c ∈ cs) {s : Solution} (hs : s ∈ (solve x [c] hops).finds) :
    s ∈ (solve x cs hops).finds := by
  have hlimit := hops_le_of_ending h
  induction x generalizing s with
  | type t =>
      rw [solve_type hlimit, Trail.finds_ofList] at hs ⊢
      obtain ⟨d, hd, rfl⟩ := List.mem_map.1 hs
      obtain ⟨hmem, ht⟩ := List.mem_filter.1 hd
      obtain rfl := List.mem_singleton.1 hmem
      exact List.mem_map.2 ⟨d, List.mem_filter.2 ⟨hc, ht⟩, rfl⟩
  | any =>
      rw [solve_any hlimit, Trail.finds_ofList] at hs ⊢
      obtain rfl := List.mem_singleton.1 hs
      exact List.mem_map.2 ⟨c, hc, rfl⟩
  | and l r _ _ => cases hx
  | filter x field ih =>
      rw [solve_filter hlimit, Trail.ending_filter] at h
      rw [solve_filter hlimit, Trail.finds_filter] at hs ⊢
      obtain ⟨hfind, hfield⟩ := List.mem_filter.1 hs
      exact List.mem_filter.2 ⟨ih hx h hfind, hfield⟩
  | capture name x ih =>
      rw [solve_capture hlimit, Trail.ending_map] at h
      rw [solve_capture hlimit, Trail.finds_map] at hs ⊢
      obtain ⟨t, ht, rfl⟩ := List.mem_map.1 hs
      exact List.mem_map.2 ⟨t, ih hx h ht, rfl⟩
  | not x _ =>
      rw [solve_not hlimit] at h hs ⊢
      exact (Trail.mem_finds_each_iff h).2 ⟨c, hc, Trail.mem_finds_each_singleton.1 hs⟩
  | parent child ancestor _ _ =>
      rw [solve_parent hlimit] at h hs ⊢
      exact (Trail.mem_finds_each_iff h).2 ⟨c, hc, Trail.mem_finds_each_singleton.1 hs⟩
  | or l r ihl ihr =>
      rw [Expr.andsEnclosed, Bool.and_eq_true] at hx
      rw [solve_or hlimit] at h hs ⊢
      rw [Trail.ending_append, Option.or_eq_none_iff] at h
      rcases Trail.mem_finds_append hs with hl | hr
      · exact Trail.mem_finds_append_iff.2 (Or.inl (ihl hx.1 h.1 hl))
      · exact Trail.mem_finds_append_iff.2 (Or.inr ⟨h.1, ihr hx.2 h.2 hr⟩)
  | foreign s =>
      rw [solve_foreign hlimit] at h
      cases h

/-- **One candidate decides among all of them**, even if it is asked nearer to the entry. -/
theorem verdict_iff_exists_single (hx : x.andsEnclosed = true) {m : Bool}
    (h : (solve x cs hops).verdict = .ok m) {hops' : Nat} (hle : hops' ≤ hops) :
    m = true ↔ ∃ c ∈ cs, (solve x [c] hops').verdict = .ok true := by
  constructor
  · rintro rfl
    obtain ⟨s, hs⟩ := Trail.verdict_eq_ok_true_iff.1 h
    obtain ⟨c, hc, hfind⟩ := exists_mem_finds_single hx hs
    have hnear := (cutBy_solve x [c] hle).finds_isPrefix.subset hfind
    exact ⟨c, hc, Trail.verdict_eq_ok_true_iff.2 ⟨s, hnear⟩⟩
  · rintro ⟨c, hc, hv⟩
    by_contra hm
    rw [Bool.not_eq_true] at hm
    rw [hm] at h
    obtain ⟨hnone, hending⟩ := Trail.verdict_eq_ok_false_iff.1 h
    obtain ⟨s, hs⟩ := Trail.verdict_eq_ok_true_iff.1 hv
    -- further away the search for the candidate does not fail either, so it is the same search
    have hsingle := ending_single hx hending hc
    have hsame := (cutBy_solve x [c] hle).eq_of_ending_ne (by rw [hsingle]; simp)
    rw [← hsame.1] at hs
    have hfind := mem_finds_of_single hx hending hc hs
    rw [hnone] at hfind
    cases hfind

end Candidates

/-! ### Matching -/

/-- An expression without foreign parts that does not run into the limit gives a verdict. -/
theorem exists_isMatch_eq_ok {x : Expr} (hx : x.isNative = true) {e : Entry}
    (h : isMatch x e ≠ .error .tooFar) : ∃ m, isMatch x e = .ok m := by
  cases hv : isMatch x e with
  | ok m => exact ⟨m, rfl⟩
  | error f =>
      rw [isMatch_eq_verdict] at hv
      have hf := ending_of_isNative hx [e] 0 f (Trail.ending_of_verdict_eq_error hv)
      rw [isMatch_eq_verdict, hv, hf] at h
      exact absurd rfl h

/-- If a search for `>` has a verdict, then one parent alone decides it. -/
theorem isMatch_parent_iff_of_ok {x n : Expr} (hn : n.andsEnclosed = true) {e : Entry} {m : Bool}
    (h : isMatch (.parent x n) e = .ok m) :
    m = true ↔ isMatch x e = .ok true ∧ ∃ p ∈ e.parents, isMatch n p = .ok true := by
  rw [isMatch_parent] at h
  cases hx : isMatch x e with
  | error f =>
      rw [hx] at h
      cases h
  | ok k =>
      rw [hx] at h
      cases k with
      | false =>
          cases h
          simp
      | true =>
          have hv : (solve n e.parents 1).verdict = .ok m := h
          rw [verdict_iff_exists_single hn hv (Nat.zero_le 1)]
          simp only [isMatch_eq_verdict, true_and]

/-- **What `>` asks of the parents.**  Let no conjunction of `n` be outside of a negation and outside
of a `>` of its own.  Unless the search runs into the limit, `x > n` then has a verdict, and it is
yes exactly if the entry matches `x` and one of its parents, alone and as an entry of its own,
matches `n`.  Without any condition, `x > (a & b)` has the verdict of `(x > a) & (x > b)`, failures
included, so one parent may satisfy `a` and another one `b`. -/
theorem isMatch_parent_among_parents (x n a b : Expr) (e : Entry) :
    (x.isNative = true → n.isNative = true → n.andsEnclosed = true →
      isMatch (.parent x n) e ≠ .error .tooFar →
        ∃ m, isMatch (.parent x n) e = .ok m ∧
          (m = true ↔ isMatch x e = .ok true ∧ ∃ p ∈ e.parents, isMatch n p = .ok true)) ∧
    isMatch (.parent x (.and a b)) e = isMatch (.and (.parent x a) (.parent x b)) e := by
  constructor
  · intro hx hn hand hlimit
    have hnative : (Expr.parent x n).isNative = true := by
      rw [Expr.isNative, hx, hn]
      rfl
    obtain ⟨m, hm⟩ := exists_isMatch_eq_ok hnative hlimit
    exact ⟨m, hm, isMatch_parent_iff_of_ok hand hm⟩
  · have hlimit : 1 ≤ maxGenerations := by decide
    rw [isMatch_parent, isMatch_and, isMatch_parent, isMatch_parent, solve_and hlimit,
      verdict_product, Verdict.and_and_left]

/-- An article with a book and a periodical as parents: the periodical alone satisfies an
alternative of which the other side is a refused conjunction, and the two parents satisfy a
conjunction that neither of them matches. -/
theorem isMatch_parent_of_two_parents :
    let book : Entry := ⟨[0, 0], "k", .book, [], []⟩
    let periodical : Entry := ⟨[0, 1], "k", .periodical, [], []⟩
    let article : Entry := ⟨[0], "k", .article, [], [book, periodical]⟩
    let n : Expr := .or (.type .periodical) (.not (.and .any (.type .book)))
    n.andsEnclosed = true ∧ isMatch (.parent .any n) article ≠ .error .tooFar ∧
      (∃ m, isMatch (.parent .any n) article = .ok m ∧
        (m = true ↔ isMatch .any article = .ok true ∧
          ∃ p ∈ article.parents, isMatch n p = .ok true)) ∧
      isMatch (.and (.parent .any (.type .book)) (.parent .any (.type .periodical))) article =
        .ok true ∧
      ∀ p ∈ article.parents, isMatch (.and (.type .book) (.type .periodical)) p = .ok false := by
  intro book periodical article n
  have hlimit : isMatch (.parent .any n) article ≠ .error .tooFar := by
    rw [isMatch_eq_meaning rfl (by decide)]
    simp
  obtain ⟨hsingle, hboth⟩ :=
    isMatch_parent_among_parents .any n (.type .book) (.type .periodical) article
  refine ⟨rfl, hlimit, hsingle rfl rfl rfl hlimit, ?_, ?_⟩
  · rw [← hboth, isMatch_eq_meaning rfl (by decide)]
    rfl
  · intro p hp
    rw [isMatch_eq_meaning rfl (by decide)]
    rcases List.mem_cons.1 hp with rfl | hp
    · rfl
    · obtain rfl := List.mem_singleton.1 hp
      rfl

end Search

end Bibliograph
