import Bibliograph.Proofs.Search.Meaning
import Mathlib.Data.List.Infix

/-!
# Searches and the limit on parent links

How many parent links lead to the candidates matters for a search in one way only: it may run into
the limit.  Nearer to the entry in question the same search finds the same solutions in the same
order, and where the one further away fails because of the limit it may go on.

Main definitions:

* `Trail.CutBy`: a trail is another one, or a beginning of it that a failure cuts off.

Main results:

* `Trail.CutBy.append`, `Trail.CutBy.map`, `Trail.CutBy.filter`, `Trail.CutBy.each`,
  `Search.cutBy_product`, `Search.cutBy_refusal`: each way to put trails together;
* `Search.cutBy_solve`: **a search further away is one nearer by, unless the limit cuts it off**;
* `Search.ending_of_isNative`: a search without foreign parts fails because of the limit or not at
  all.
-/

set_option autoImplicit false

namespace Bibliograph

/-! ### Trails that are cut off -/

namespace Trail

variable {ε α β : Type}

/-- The first trail is the second one, or a beginning of it that the failure `e` cuts off. -/
def CutBy (e : ε) (t u : Trail ε α) : Prop :=
  (t.finds = u.finds ∧ t.ending = u.ending) ∨ (t.finds <+: u.finds ∧ t.ending = some e)

namespace CutBy

variable {e : ε} {t u : Trail ε α}

theorem refl (e : ε) (t : Trail ε α) : CutBy e t t :=
  Or.inl ⟨rfl, rfl⟩

theorem failed (e : ε) (u : Trail ε α) : CutBy e (failed e) u :=
  Or.inr ⟨List.nil_prefix, rfl⟩

theorem finds_isPrefix (h : CutBy e t u) : t.finds <+: u.finds := by
  rcases h with ⟨hf, -⟩ | ⟨hf, -⟩
  · exact hf ▸ List.prefix_rfl
  · exact hf

theorem trans {v : Trail ε α} (h : CutBy e t u) (h' : CutBy e u v) : CutBy e t v := by
  rcases h with ⟨hf, he⟩ | ⟨hf, he⟩
  · rw [CutBy, hf, he]
    exact h'
  · exact Or.inr ⟨hf.trans h'.finds_isPrefix, he⟩

/-- A trail that ends otherwise is not cut off. -/
theorem eq_of_ending_ne (h : CutBy e t u) (hne : t.ending ≠ some e) :
    t.finds = u.finds ∧ t.ending = u.ending := by
  rcases h with h | ⟨-, he⟩
  · exact h
  · exact absurd he hne

theorem map (f : α → β) (h : CutBy e t u) : CutBy e (t.map f) (u.map f) := by
  simp only [CutBy, finds_map, ending_map]
  rcases h with ⟨hf, he⟩ | ⟨hf, he⟩
  · exact Or.inl ⟨by rw [hf], he⟩
  · exact Or.inr ⟨hf.map f, he⟩

theorem filter (p : α → Bool) (h : CutBy e t u) : CutBy e (t.filter p) (u.filter p) := by
  simp only [CutBy, finds_filter, ending_filter]
  rcases h with ⟨hf, he⟩ | ⟨hf, he⟩
  · exact Or.inl ⟨by rw [hf], he⟩
  · exact Or.inr ⟨hf.filter p, he⟩

theorem append {next next' : Unit → Trail ε α} (h : CutBy e t u)
    (hnext : CutBy e (next ()) (next' ())) : CutBy e (t.append next) (u.append next') := by
  simp only [CutBy, finds_append, ending_append]
  rcases h with ⟨hf, he⟩ | ⟨hf, he⟩
  · -- both go on with what follows, or end with the same failure
    rw [hf, he]
    cases u.ending with
    | some d => exact Or.inl ⟨rfl, rfl⟩
    | none =>
        rcases hnext with ⟨hnf, hne⟩ | ⟨hnf, hne⟩
        · exact Or.inl ⟨by simp [hnf], by simp [hne]⟩
        · refine Or.inr ⟨?_, by simp [hne]⟩
          simpa using hnf
  · refine Or.inr ⟨?_, by simp [he]⟩
    rw [he]
    split
    · split
      · exact hf
      · exact hf.trans (List.prefix_append _ _)
    · rename_i hnone
      exact absurd rfl hnone

theorem each {as : List β} {f g : β → Trail ε α} (h : ∀ a ∈ as, CutBy e (f a) (g a)) :
    CutBy e (Trail.each as f) (Trail.each as g) := by
  induction as with
  | nil => exact refl e _
  | cons a as ih =>
      have hfirst : CutBy e (f a) (g a) := h a (List.mem_cons_self ..)
      have hlater := ih fun b hb => h b (List.mem_cons_of_mem _ hb)
      exact hfirst.append hlater

end CutBy

end Trail

namespace Search

open Selector

/-! ### Products and negations -/

section Products

variable {ε α β γ : Type} {e : ε} (f : α → β → γ)

/-- The first round of a product finds at least as much in a longer replay. -/
theorem take_one_flatMap_prefix {as : List α} {bs bs' : List β} (h : bs <+: bs') (p : Bool) :
    ((as.take 1).flatMap fun a => bs.map (f a)) <+:
      (if p then as.take 1 else as).flatMap fun a => bs'.map (f a) := by
  cases as with
  | nil => cases p <;> exact List.prefix_rfl
  | cons a as =>
      have hfirst : bs.map (f a) <+: bs'.map (f a) := h.map (f a)
      cases p with
      | true => simpa using hfirst
      | false => simpa using hfirst.trans (List.prefix_append _ _)

theorem cutBy_product_left {t t' : Trail ε α} (h : Trail.CutBy e t t') (r : Replay ε β) :
    Trail.CutBy e (product f t r) (product f t' r) := by
  simp only [Trail.CutBy, finds_product, ending_product]
  rcases h with ⟨hf, he⟩ | ⟨hf, he⟩
  · rw [hf, he]
    exact Or.inl ⟨rfl, rfl⟩
  · obtain ⟨as, has⟩ := hf
    rw [← has, he]
    cases hfinds : t.finds with
    | nil => exact Or.inr ⟨by simp, by simp⟩
    | cons a rest =>
        cases hr : r.ending with
        | some d => exact Or.inl ⟨by simp, by simp⟩
        | none =>
            by_cases hb : r.finds = []
            · exact Or.inl ⟨by simp [hb], by simp [hb]⟩
            · refine Or.inr ⟨?_, by simp [hb]⟩
              simp [List.flatMap_append]

theorem cutBy_product_right (t : Trail ε α) {r r' : Replay ε β}
    (h : (r.finds = r'.finds ∧ r.ending = r'.ending) ∨
      (r.finds <+: r'.finds ∧ r.ending = some e)) :
    Trail.CutBy e (product f t r) (product f t r') := by
  simp only [Trail.CutBy, finds_product, ending_product]
  rcases h with ⟨hf, he⟩ | ⟨hf, he⟩
  · rw [hf, he]
    exact Or.inl ⟨rfl, rfl⟩
  · rw [he]
    by_cases ht : t.finds = []
    · exact Or.inl ⟨by simp [ht], by simp [ht]⟩
    · refine Or.inr ⟨?_, by simp [ht]⟩
      exact take_one_flatMap_prefix f hf _

/-- A product is cut off where one of its sides is. -/
theorem cutBy_product {t t' : Trail ε α} (ht : Trail.CutBy e t t') {u u' : Unit → Trail ε β}
    (hu : Trail.CutBy e (u ()) (u' ())) :
    Trail.CutBy e (product f t (.ofTrail u)) (product f t' (.ofTrail u')) := by
  refine (cutBy_product_left f ht _).trans (cutBy_product_right f t' ?_)
  rw [Replay.finds_ofTrail, Replay.finds_ofTrail]
  exact hu

end Products

theorem cutBy_refusal {e : Fault} (c : Entry) {t u : Trail Fault Solution}
    (h : Trail.CutBy e t u) : Trail.CutBy e (refusal c t) (refusal c u) := by
  cases t with
  | done =>
      obtain ⟨hf, he⟩ := h.eq_of_ending_ne (by simp)
      cases u with
      | done => exact .refl _ _
      | failed d => simp at he
      | found s rest => simp at hf
  | failed d =>
      rcases h with ⟨hf, he⟩ | ⟨-, he⟩
      · cases u with
        | done => simp at he
        | failed d' =>
            cases he
            exact .refl _ _
        | found s rest => simp at hf
      · cases he
        exact .failed _ _
  | found s rest =>
      have hf := h.finds_isPrefix
      cases u with
      | done => simp at hf
      | failed d => simp at hf
      | found s' rest' => exact .refl _ _

/-! ### Searches -/

/-- **A search further away is one nearer by, unless the limit cuts it off.** -/
theorem cutBy_solve (x : Expr) (cs : List Entry) {hops hops' : Nat} (h : hops' ≤ hops) :
    Trail.CutBy .tooFar (solve x cs hops) (solve x cs hops') := by
  by_cases hfar : maxGenerations < hops
  · rw [solve_tooFar hfar]
    exact .failed _ _
  -- from here on neither of the two guards fires at the expression itself
  have hlimit : hops ≤ maxGenerations := Nat.not_lt.1 hfar
  have hlimit' : hops' ≤ maxGenerations := Nat.le_trans h hlimit
  induction x generalizing cs hops hops' with
  | type t =>
      rw [solve_type hlimit, solve_type hlimit']
      exact .refl _ _
  | any =>
      rw [solve_any hlimit, solve_any hlimit']
      exact .refl _ _
  | filter x field ih =>
      rw [solve_filter hlimit, solve_filter hlimit']
      exact (ih cs h hfar hlimit hlimit').filter _
  | capture name x ih =>
      rw [solve_capture hlimit, solve_capture hlimit']
      exact (ih cs h hfar hlimit hlimit').map _
  | not x ih =>
      rw [solve_not hlimit, solve_not hlimit']
      exact .each fun c _ => cutBy_refusal c (ih [c] h hfar hlimit hlimit')
  | or l r ihl ihr =>
      rw [solve_or hlimit, solve_or hlimit']
      exact (ihl cs h hfar hlimit hlimit').append (ihr cs h hfar hlimit hlimit')
  | and l r ihl ihr =>
      rw [solve_and hlimit, solve_and hlimit']
      exact cutBy_product _ (ihl cs h hfar hlimit hlimit') (ihr cs h hfar hlimit hlimit')
  | parent child ancestor ihc iha =>
      rw [solve_parent hlimit, solve_parent hlimit']
      refine .each fun c _ => cutBy_product _ (ihc [c] h hfar hlimit hlimit') ?_
      by_cases hnext : maxGenerations < hops + 1
      · rw [solve_tooFar hnext]
        exact .failed _ _
      · have hsucc : hops' + 1 ≤ hops + 1 := Nat.succ_le_succ h
        have hbelow : hops + 1 ≤ maxGenerations := Nat.not_lt.1 hnext
        exact iha c.parents hsucc hnext hbelow (Nat.le_trans hsucc hbelow)
  | foreign s =>
      rw [solve_foreign hlimit, solve_foreign hlimit']
      exact .refl _ _

/-! ### Failures -/

theorem ending_eq_of_append {ε α : Type} {e : ε} {t : Trail ε α} {next : Unit → Trail ε α}
    (ht : ∀ d, t.ending = some d → d = e) (hnext : ∀ d, (next ()).ending = some d → d = e) :
    ∀ d, (t.append next).ending = some d → d = e := by
  intro d hd
  rw [Trail.ending_append] at hd
  cases h : t.ending with
  | none =>
      rw [h, Option.none_or] at hd
      exact hnext d hd
  | some d' =>
      rw [h, Option.some_or] at hd
      exact ht d (h.trans hd)

theorem ending_eq_of_each {ε α β : Type} {e : ε} {as : List β} {f : β → Trail ε α}
    (h : ∀ a ∈ as, ∀ d, (f a).ending = some d → d = e) :
    ∀ d, (Trail.each as f).ending = some d → d = e := by
  induction as with
  | nil =>
      intro d hd
      cases hd
  | cons a as ih =>
      have hlater := ih fun b hb => h b (List.mem_cons_of_mem _ hb)
      exact ending_eq_of_append (h a (List.mem_cons_self ..)) hlater

theorem ending_eq_of_product {ε α β γ : Type} {e : ε} {f : α → β → γ} {t : Trail ε α}
    {u : Unit → Trail ε β} (ht : ∀ d, t.ending = some d → d = e)
    (hu : ∀ d, (u ()).ending = some d → d = e) :
    ∀ d, (product f t (.ofTrail u)).ending = some d → d = e := by
  intro d hd
  rw [ending_product, Replay.ending_ofTrail] at hd
  split at hd
  · exact ht d hd
  · cases h : (u ()).ending with
    | none =>
        rw [h, Option.none_or] at hd
        split at hd
        · cases hd
        · exact ht d hd
    | some d' =>
        rw [h, Option.some_or] at hd
        exact hu d (h.trans hd)

theorem ending_eq_of_refusal {e : Fault} (c : Entry) {t : Trail Fault Solution}
    (ht : ∀ d, t.ending = some d → d = e) : ∀ d, (refusal c t).ending = some d → d = e := by
  intro d hd
  cases t with
  | done => cases hd
  | failed d' => exact ht d hd
  | found s rest => cases hd

/-- **A search without foreign parts fails because of the limit or not at all.** -/
theorem ending_of_isNative {x : Expr} (hx : x.isNative = true) (cs : List Entry) (hops : Nat) :
    ∀ d, (solve x cs hops).ending = some d → d = .tooFar := by
  by_cases hfar : maxGenerations < hops
  · intro d hd
    rw [solve_tooFar hfar] at hd
    cases hd
    rfl
  have hlimit : hops ≤ maxGenerations := Nat.not_lt.1 hfar
  induction x generalizing cs hops with
  | type t => simp [solve_type hlimit]
  | any => simp [solve_any hlimit]
  | foreign s => cases hx
  | filter x field ih =>
      rw [solve_filter hlimit, Trail.ending_filter]
      exact ih hx cs hops hfar hlimit
  | capture name x ih =>
      rw [solve_capture hlimit, Trail.ending_map]
      exact ih hx cs hops hfar hlimit
  | not x ih =>
      rw [solve_not hlimit]
      exact ending_eq_of_each fun c _ => ending_eq_of_refusal c (ih hx [c] hops hfar hlimit)
  | or l r ihl ihr =>
      rw [Expr.isNative, Bool.and_eq_true] at hx
      rw [solve_or hlimit]
      exact ending_eq_of_append (ihl hx.1 cs hops hfar hlimit) (ihr hx.2 cs hops hfar hlimit)
  | and l r ihl ihr =>
      rw [Expr.isNative, Bool.and_eq_true] at hx
      rw [solve_and hlimit]
      exact ending_eq_of_product (ihl hx.1 cs hops hfar hlimit) (ihr hx.2 cs hops hfar hlimit)
  | parent child ancestor ihc iha =>
      rw [Expr.isNative, Bool.and_eq_true] at hx
      rw [solve_parent hlimit]
      refine ending_eq_of_each fun c _ =>
        ending_eq_of_product (ihc hx.1 [c] hops hfar hlimit) ?_
      by_cases hnext : maxGenerations < hops + 1
      · intro d hd
        rw [solve_tooFar hnext] at hd
        cases hd
        rfl
      · exact iha hx.2 c.parents (hops + 1) hnext (Nat.not_lt.1 hnext)

end Search

end Bibliograph
