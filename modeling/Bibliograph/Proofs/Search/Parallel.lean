import Bibliograph.Proofs.Search.Verdict
import Mathlib.Data.List.Forall2

/-!
# Two searches side by side

An expression asks an entry for three things: its type, whether it has a field, and its parents.
Where two entries give the same answers, and so do their parents in turn, two searches for one
expression go the same way: their finds correspond one to one, in order, and they end in the same
way, with the same failure or without one.

Main definitions:

* `Trail.Parallel`: two trails with corresponding finds and the same end;
* `Search.Lookalikes`: a relation of entries that an expression cannot tell apart;
* `Search.SolutionRel`: solutions with related witnesses, and with captures of the same names that
  are bound to related entries.

Main results:

* `Trail.Parallel.append`, `Trail.Parallel.map`, `Trail.Parallel.filter`, `Trail.Parallel.each`,
  `Search.parallel_product`, `Search.parallel_refusal`: each way to put trails together;
* `Search.Lookalikes.parallel_solve`: **searches among related candidates are parallel**;
* `Search.rel_ofPairs`: the bindings of parallel solutions correspond as well.
-/

set_option autoImplicit false

namespace Bibliograph

/-! ### Parallel trails -/

namespace Trail

variable {ε α α' β β' : Type} {R : α → α' → Prop} {S : β → β' → Prop}

theorem rel_filter_of_eq {p : α → Bool} {q : α' → Bool} (hpq : ∀ a b, R a b → p a = q b)
    {as : List α} {bs : List α'} (h : List.Forall₂ R as bs) :
    List.Forall₂ R (as.filter p) (bs.filter q) := by
  refine List.rel_filter (fun a b hab => ?_) h
  change p a = true ↔ q b = true
  rw [hpq a b hab]

/-- The finds correspond one to one, and the trails end in the same way. -/
structure Parallel (R : α → α' → Prop) (t : Trail ε α) (u : Trail ε α') : Prop where
  finds : List.Forall₂ R t.finds u.finds
  ending : t.ending = u.ending

namespace Parallel

variable {t : Trail ε α} {u : Trail ε α'}

theorem done : Parallel R (.done : Trail ε α) (.done : Trail ε α') :=
  ⟨.nil, rfl⟩

theorem failed (e : ε) : Parallel R (.failed e) (.failed e) :=
  ⟨.nil, rfl⟩

theorem ofList {as : List α} {bs : List α'} (h : List.Forall₂ R as bs) :
    Parallel R (.ofList as : Trail ε α) (.ofList bs : Trail ε α') where
  finds := by
    rw [finds_ofList, finds_ofList]
    exact h
  ending := by rw [ending_ofList, ending_ofList]

theorem append {next : Unit → Trail ε α} {next' : Unit → Trail ε α'} (h : Parallel R t u)
    (hnext : Parallel R (next ()) (next' ())) : Parallel R (t.append next) (u.append next') where
  finds := by
    rw [finds_append, finds_append, h.ending]
    split
    · exact h.finds
    · exact List.rel_append h.finds hnext.finds
  ending := by rw [ending_append, ending_append, h.ending, hnext.ending]

theorem map {f : α → β} {g : α' → β'} (hfg : ∀ a b, R a b → S (f a) (g b))
    (h : Parallel R t u) : Parallel S (t.map f) (u.map g) where
  finds := by
    rw [finds_map, finds_map]
    exact List.rel_map (fun _ _ hab => hfg _ _ hab) h.finds
  ending := by rw [ending_map, ending_map, h.ending]

theorem filter {p : α → Bool} {q : α' → Bool} (hpq : ∀ a b, R a b → p a = q b)
    (h : Parallel R t u) : Parallel R (t.filter p) (u.filter q) where
  finds := by
    rw [finds_filter, finds_filter]
    exact rel_filter_of_eq hpq h.finds
  ending := by rw [ending_filter, ending_filter, h.ending]

theorem each {as : List α} {bs : List α'} {f : α → Trail ε β} {g : α' → Trail ε β'}
    (has : List.Forall₂ R as bs) (h : ∀ a b, R a b → Parallel S (f a) (g b)) :
    Parallel S (Trail.each as f) (Trail.each bs g) := by
  induction has with
  | nil => exact done
  | cons hab _ ih => exact (h _ _ hab).append ih

/-- What comes first decides in the same way. -/
theorem verdict_eq (h : Parallel R t u) : t.verdict = u.verdict := by
  obtain ⟨hfinds, hending⟩ := h
  cases t with
  | done =>
      cases u with
      | done => rfl
      | failed e => cases hending
      | found b rest => cases hfinds
  | failed e =>
      cases u with
      | done => cases hending
      | failed d =>
          cases hending
          rfl
      | found b rest => cases hfinds
  | found a rest =>
      cases u with
      | done => cases hfinds
      | failed d => cases hfinds
      | found b rest' => rfl

end Parallel

end Trail

namespace Search

open Selector

/-! ### Products and negations -/

theorem parallel_product {ε α α' β β' γ γ' : Type} {R : α → α' → Prop} {S : β → β' → Prop}
    {T : γ → γ' → Prop} {f : α → β → γ} {g : α' → β' → γ'}
    (hfg : ∀ a a' b b', R a a' → S b b' → T (f a b) (g a' b')) {t : Trail ε α} {t' : Trail ε α'}
    (ht : Trail.Parallel R t t') {u : Unit → Trail ε β} {u' : Unit → Trail ε β'}
    (hu : Trail.Parallel S (u ()) (u' ())) :
    Trail.Parallel T (product f t (.ofTrail u)) (product g t' (.ofTrail u')) where
  finds := by
    rw [finds_product, finds_product, Replay.finds_ofTrail, Replay.finds_ofTrail,
      Replay.ending_ofTrail, Replay.ending_ofTrail, hu.ending]
    have hround : ∀ a a', R a a' →
        List.Forall₂ T ((u ()).finds.map (f a)) ((u' ()).finds.map (g a')) :=
      fun a a' ha => List.rel_map (fun _ _ hb => hfg _ _ _ _ ha hb) hu.finds
    split
    · exact List.rel_flatMap (List.forall₂_take 1 ht.finds) hround
    · exact List.rel_flatMap ht.finds hround
  ending := by
    have hleft : t.finds = [] ↔ t'.finds = [] := by
      rw [← List.length_eq_zero_iff, ht.finds.length_eq, List.length_eq_zero_iff]
    have hright : (u ()).finds = [] ↔ (u' ()).finds = [] := by
      rw [← List.length_eq_zero_iff, hu.finds.length_eq, List.length_eq_zero_iff]
    simp only [ending_product, Replay.finds_ofTrail, Replay.ending_ofTrail, hleft, hright,
      ht.ending, hu.ending]

theorem parallel_refusal {R S : Solution → Solution → Prop} {c c' : Entry}
    (hc : S (Solution.plain c) (Solution.plain c')) {t u : Trail Fault Solution}
    (h : Trail.Parallel R t u) : Trail.Parallel S (refusal c t) (refusal c' u) := by
  obtain ⟨hfinds, hending⟩ := h
  cases t with
  | done =>
      cases u with
      | done => exact .ofList (.cons hc .nil)
      | failed e => cases hending
      | found s rest => cases hfinds
  | failed e =>
      cases u with
      | done => cases hending
      | failed d =>
          cases hending
          exact .failed e
      | found s rest => cases hfinds
  | found s rest =>
      cases u with
      | done => cases hfinds
      | failed d => cases hfinds
      | found s' rest' => exact .done

/-! ### Searches -/

/-- What an expression asks of related entries has the same answer, and their parents are related
again, one to one and in order. -/
structure Lookalikes (R : Entry → Entry → Prop) : Prop where
  type_eq : ∀ c d, R c d → c.type = d.type
  has_eq : ∀ c d, R c d → ∀ field, c.has field = d.has field
  parents : ∀ c d, R c d → List.Forall₂ R c.parents d.parents

/-- Names that are the same, bound to related entries. -/
def BoundRel (R : Entry → Entry → Prop) (p q : String × Entry) : Prop :=
  p.1 = q.1 ∧ R p.2 q.2

/-- Related witnesses, and captures of the same names in the same order with related entries. -/
structure SolutionRel (R : Entry → Entry → Prop) (s t : Solution) : Prop where
  witness : R s.witness t.witness
  captured : List.Forall₂ (BoundRel R) s.captured t.captured

variable {R : Entry → Entry → Prop}

theorem SolutionRel.plain {c d : Entry} (h : R c d) :
    SolutionRel R (Solution.plain c) (Solution.plain d) :=
  ⟨h, .nil⟩

theorem SolutionRel.withCaptures {c d : Entry} (h : R c d) {s t s' t' : Solution}
    (hs : SolutionRel R s s') (ht : SolutionRel R t t') :
    SolutionRel R ⟨c, s.captured ++ t.captured⟩ ⟨d, s'.captured ++ t'.captured⟩ :=
  ⟨h, List.rel_append hs.captured ht.captured⟩

/-- **Searches among related candidates are parallel**, whatever the expression is. -/
theorem Lookalikes.parallel_solve (hR : Lookalikes R) (x : Expr) {cs ds : List Entry}
    (h : List.Forall₂ R cs ds) (hops : Nat) :
    Trail.Parallel (SolutionRel R) (solve x cs hops) (solve x ds hops) := by
  by_cases hfar : maxGenerations < hops
  · rw [solve_tooFar hfar, solve_tooFar hfar]
    exact .failed _
  have hlimit : hops ≤ maxGenerations := Nat.not_lt.1 hfar
  have hone : ∀ c d, R c d → List.Forall₂ R [c] [d] := fun _ _ hcd => .cons hcd .nil
  induction x generalizing cs ds hops with
  | type t =>
      rw [solve_type hlimit, solve_type hlimit]
      have hkept : List.Forall₂ R (cs.filter fun c => c.type = t) (ds.filter fun d => d.type = t) :=
        Trail.rel_filter_of_eq (fun c d hcd => by rw [hR.type_eq c d hcd]) h
      exact .ofList (List.rel_map (fun _ _ hcd => .plain hcd) hkept)
  | any =>
      rw [solve_any hlimit, solve_any hlimit]
      exact .ofList (List.rel_map (fun _ _ hcd => .plain hcd) h)
  | filter x field ih =>
      rw [solve_filter hlimit, solve_filter hlimit]
      exact (ih h hops hfar hlimit).filter fun s t hst => hR.has_eq _ _ hst.witness field
  | capture name x ih =>
      rw [solve_capture hlimit, solve_capture hlimit]
      refine (ih h hops hfar hlimit).map fun s t hst => ⟨hst.witness, ?_⟩
      exact List.rel_append hst.captured (.cons ⟨rfl, hst.witness⟩ .nil)
  | not x ih =>
      rw [solve_not hlimit, solve_not hlimit]
      refine .each h fun c d hcd => ?_
      exact parallel_refusal (.plain hcd) (ih (hone c d hcd) hops hfar hlimit)
  | or l r ihl ihr =>
      rw [solve_or hlimit, solve_or hlimit]
      exact (ihl h hops hfar hlimit).append (ihr h hops hfar hlimit)
  | and l r ihl ihr =>
      rw [solve_and hlimit, solve_and hlimit]
      refine parallel_product (fun s s' t t' hs ht => ?_) (ihl h hops hfar hlimit)
        (ihr h hops hfar hlimit)
      exact .withCaptures hs.witness hs ht
  | parent child ancestor ihc iha =>
      rw [solve_parent hlimit, solve_parent hlimit]
      refine .each h fun c d hcd => ?_
      refine parallel_product (fun s s' t t' hs ht => .withCaptures hcd hs ht)
        (ihc (hone c d hcd) hops hfar hlimit) ?_
      -- the parents are one link further away, perhaps beyond the limit
      by_cases hnext : maxGenerations < hops + 1
      · rw [solve_tooFar hnext, solve_tooFar hnext]
        exact .failed _
      · exact iha (hR.parents c d hcd) (hops + 1) hnext (Nat.not_lt.1 hnext)
  | foreign s =>
      rw [solve_foreign hlimit, solve_foreign hlimit]
      exact .failed _

/-! ### Bindings -/

theorem rel_insert {name : String} {c d : Entry} (hcd : R c d) {m m' : List (String × Entry)}
    (h : List.Forall₂ (BoundRel R) m m') :
    List.Forall₂ (BoundRel R) (Assoc.insert name c m) (Assoc.insert name d m') := by
  induction h with
  | nil => exact .cons ⟨rfl, hcd⟩ .nil
  | @cons p q m m' hpq hrest ih =>
      rw [Assoc.insert, Assoc.insert, hpq.1]
      split
      · exact .cons ⟨rfl, hcd⟩ hrest
      · exact .cons hpq ih

/-- A later capture replaces an earlier one of the same name on both sides. -/
theorem rel_ofPairs {ps qs : List (String × Entry)} (h : List.Forall₂ (BoundRel R) ps qs) :
    List.Forall₂ (BoundRel R) (Bindings.ofPairs ps).pairs (Bindings.ofPairs qs).pairs := by
  suffices ∀ m m' : List (String × Entry), List.Forall₂ (BoundRel R) m m' →
      List.Forall₂ (BoundRel R) (ps.foldl (fun m p => Assoc.insert p.1 p.2 m) m)
        (qs.foldl (fun m p => Assoc.insert p.1 p.2 m) m') from this [] [] .nil
  induction h with
  | nil => exact fun _ _ hm => hm
  | @cons p q ps qs hpq _ ih =>
      intro m m' hm
      rw [List.foldl_cons, List.foldl_cons, hpq.1]
      exact ih _ _ (rel_insert hpq.2 hm)

end Search

end Bibliograph
