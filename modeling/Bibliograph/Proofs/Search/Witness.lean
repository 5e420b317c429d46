import Bibliograph.Proofs.Search.Ancestor
import Bibliograph.Proofs.Search.Parallel

/-!
# Filters and captures at the witness

A filter asks the witness of a solution for a field, and a capture binds it to a name.  An
alternative has the witness of the side that succeeds, a conjunction that of its left side, and `>`
that of its child, which is the candidate.  So a filter or a capture around such an expression can
be pushed to the side that supplies the witness: `(a & b)[f]` finds what `a[f] & b` finds, and
`n:(a > b)` what `n:a > b` finds.

The two searches need not run into the same failures.  In `(a & b)[f]` the right side is searched
as soon as `a` finds anything, in `a[f] & b` only once `a` finds something with the field; and where
`b` finds nothing, `a` is left after its first find, which in `a[f] & b` is a later one.

Main definitions:

* `Search.SameCaptures`: solutions with one witness and the same captures in whatever order.

Main results:

* `Search.witness_eq_of_mem_finds`: a search of one candidate has no other witness;
* `Search.finds_filter_product`: a filter of a product that asks for its left side only;
* `Search.parallel_map_product`: a change to every find of a product that can be made on its left
  side;
* `Search.pushed_to_witness`: **filters and captures can be pushed to the witness**.
-/

set_option autoImplicit false

namespace Bibliograph

/-! ### Trails that are changed as a whole -/

namespace Trail

variable {ε α β γ : Type}

theorem filter_append (p : α → Bool) (t : Trail ε α) (next : Unit → Trail ε α) :
    (t.append next).filter p = (t.filter p).append fun _ => (next ()).filter p := by
  induction t with
  | done => rfl
  | failed e => rfl
  | found a rest ih =>
      by_cases h : p a
      · simp [append, filter, h, ih]
      · simp [append, filter, h, ih]

theorem map_append (f : α → β) (t : Trail ε α) (next : Unit → Trail ε α) :
    (t.append next).map f = (t.map f).append fun _ => (next ()).map f := by
  induction t with
  | done => rfl
  | failed e => rfl
  | found a rest ih => simp [append, map, ih]

/-- A trail whose finds are changed goes on in parallel with the trail as it was. -/
theorem Parallel.map_left {R : β → γ → Prop} {f : α → β} {t : Trail ε α} {u : Trail ε γ}
    (h : Parallel (fun a c => R (f a) c) t u) : Parallel R (t.map f) u where
  finds := by
    rw [finds_map]
    exact List.forall₂_map_left_iff.2 h.finds
  ending := by rw [ending_map, h.ending]

theorem Parallel.self_map {P : α → Prop} (f : α → β) {t : Trail ε α} (hP : ∀ a ∈ t.finds, P a) :
    Parallel (fun a b => P a ∧ b = f a) t (t.map f) where
  finds := by
    rw [finds_map]
    exact List.forall₂_map_right_iff.2 (List.forall₂_same.2 fun a ha => ⟨hP a ha, rfl⟩)
  ending := by rw [ending_map]

theorem Parallel.rfl {t : Trail ε α} : Parallel Eq t t :=
  ⟨List.forall₂_eq_eq_eq ▸ Eq.refl _, Eq.refl _⟩

end Trail

/-- Every entry is the only ancestor at some distance of some entry. -/
theorem Entry.exists_level_eq_singleton (c : Entry) (n : Nat) : ∃ e : Entry, e.level n = [c] := by
  induction n with
  | zero => exact ⟨c, Entry.level_zero c⟩
  | succ n ih =>
      obtain ⟨e, he⟩ := ih
      refine ⟨⟨[], "", .misc, [], [e]⟩, ?_⟩
      rw [Entry.level_succ_eq_flatMap_parents]
      simp [he]

namespace Search

open Selector

/-! ### Products -/

section Products

variable {ε α α' β γ γ' : Type}

theorem filter_flatMap_map {f : α → β → γ} {p : γ → Bool} {q : α → Bool} {as : List α}
    (hpq : ∀ a ∈ as, ∀ b, p (f a b) = q a) (bs : List β) :
    (as.flatMap fun a => bs.map (f a)).filter p = (as.filter q).flatMap fun a => bs.map (f a) := by
  induction as with
  | nil => rfl
  | cons a as ih =>
      simp only [List.mem_cons, forall_eq_or_imp] at hpq
      have hround : (bs.map (f a)).filter p = if q a then bs.map (f a) else [] := by
        rw [List.filter_map, show p ∘ f a = fun _ => q a from funext hpq.1]
        cases q a <;> simp
      rw [List.flatMap_cons, List.filter_append, ih hpq.2, hround]
      cases hq : q a <;> simp [hq]

/-- **A filter of a product that asks for its left side only** can be made on the left side, unless
both ways fail. -/
theorem finds_filter_product {f : α → β → γ} {p : γ → Bool} {q : α → Bool} {t : Trail ε α}
    {r : Replay ε β} (hpq : ∀ a ∈ t.finds, ∀ b, p (f a b) = q a)
    (h : (product f t r).ending = none ∨ (product f (t.filter q) r).ending = none) :
    ((product f t r).filter p).finds = (product f (t.filter q) r).finds := by
  rw [Trail.finds_filter, finds_product, finds_product, Trail.finds_filter]
  by_cases hkept : t.finds.filter q = []
  · -- no left find is kept, however far the left side was searched
    have hnone : ∀ a ∈ t.finds, q a = false := by simpa using hkept
    have hsome : ∀ as : List α, (∀ a ∈ as, a ∈ t.finds) →
        (as.flatMap fun a => r.finds.map (f a)).filter p = [] := by
      intro as has
      rw [filter_flatMap_map fun a ha => hpq a (has a ha),
        List.filter_eq_nil_iff.2 fun a ha => by simp [hnone a (has a ha)], List.flatMap_nil]
    rw [hkept, hsome]
    · cases r.ending <;> rfl
    · intro a ha
      split at ha
      · exact List.mem_of_mem_take ha
      · exact ha
  · -- the right side was asked to its end by the way that does not fail
    have hfinds : t.finds ≠ [] := by
      intro hnil
      exact hkept (by rw [hnil, List.filter_nil])
    have hr : r.ending = none := by
      rcases h with h | h
      · rw [ending_product, if_neg hfinds] at h
        exact (Option.or_eq_none_iff.1 h).1
      · rw [ending_product, Trail.finds_filter, if_neg hkept] at h
        exact (Option.or_eq_none_iff.1 h).1
    simp only [hr, Option.isSome_none, Bool.false_eq_true, if_false]
    exact filter_flatMap_map hpq r.finds

/-- **A change to every find of a product that can be made on its left side**, with the same end. -/
theorem parallel_map_product {R : γ' → γ' → Prop} {P : α → Prop} {f : α → β → γ}
    {g : α' → β → γ'} {h : γ → γ'} {k : α → α'} (hR : ∀ a b, P a → R (h (f a b)) (g (k a) b))
    {t : Trail ε α} (hP : ∀ a ∈ t.finds, P a) (u : Unit → Trail ε β) :
    Trail.Parallel (fun c c' => R (h c) c') (product f t (.ofTrail u))
      (product g (t.map k) (.ofTrail u)) := by
  refine parallel_product ?_ (Trail.Parallel.self_map k hP) (Trail.Parallel.rfl (t := u ()))
  rintro a _ b _ ⟨ha, rfl⟩ rfl
  exact hR a b ha

end Products

/-! ### Witnesses -/

/-- **A search of one candidate has no other witness.** -/
theorem witness_eq_of_mem_finds {x : Expr} {c : Entry} {hops : Nat} {s : Solution}
    (h : s ∈ (solve x [c] hops).finds) : s.witness = c := by
  obtain ⟨e, he⟩ := c.exists_level_eq_singleton hops
  obtain ⟨p, hroute, -⟩ := exists_route (e := e) (fun d hd => he ▸ hd) h
  exact List.mem_singleton.1 hroute.mem

/-- One witness, and the same captures, perhaps completed in another order. -/
structure SameCaptures (s t : Solution) : Prop where
  witness : s.witness = t.witness
  captured : s.captured.Perm t.captured

/-- A capture behind the captures of both sides, or between them. -/
theorem sameCaptures_of_moved (w : Entry) (left right : List (String × Entry))
    (p : String × Entry) : SameCaptures ⟨w, left ++ right ++ [p]⟩ ⟨w, left ++ [p] ++ right⟩ where
  witness := rfl
  captured := by
    rw [List.append_assoc, List.append_assoc]
    exact List.perm_append_comm.append_left left

/-! ### Filters -/

section Filters

variable (a b : Expr) (field : String) (cs : List Entry) (hops : Nat)

theorem solve_filter_or : solve (.filter (.or a b) field) cs hops =
    solve (.or (.filter a field) (.filter b field)) cs hops := by
  rcases Nat.lt_or_ge maxGenerations hops with hfar | hlimit
  · rw [solve_tooFar hfar, solve_tooFar hfar]
  · simp only [solve_filter hlimit, solve_or hlimit, Trail.filter_append]

variable {a b field cs hops}

theorem finds_filter_and
    (h : (solve (.filter (.and a b) field) cs hops).ending = none ∨
      (solve (.and (.filter a field) b) cs hops).ending = none) :
    (solve (.filter (.and a b) field) cs hops).finds =
      (solve (.and (.filter a field) b) cs hops).finds := by
  have hlimit : hops ≤ maxGenerations := h.elim hops_le_of_ending hops_le_of_ending
  simp only [solve_filter hlimit, solve_and hlimit, Trail.ending_filter] at h ⊢
  exact finds_filter_product (fun _ _ _ => rfl) h

/-- Candidate by candidate; a failure for one of them keeps the later ones from being searched. -/
theorem finds_filter_parent (h : (solve (.filter (.parent a b) field) cs hops).ending = none)
    (h' : (solve (.parent (.filter a field) b) cs hops).ending = none) :
    (solve (.filter (.parent a b) field) cs hops).finds =
      (solve (.parent (.filter a field) b) cs hops).finds := by
  have hlimit := hops_le_of_ending h
  simp only [solve_filter hlimit, solve_parent hlimit, Trail.ending_filter] at h h' ⊢
  rw [Trail.ending_each_eq_none_iff] at h h'
  rw [Trail.finds_filter, Trail.finds_each h, Trail.finds_each h', List.filter_flatMap]
  refine List.flatMap_congr fun c hc => ?_
  rw [← Trail.finds_filter]
  refine finds_filter_product (fun s hs _ => ?_) (Or.inl (h c hc))
  rw [witness_eq_of_mem_finds hs]

end Filters

/-! ### Captures -/

section Captures

variable (a b : Expr) (name : String) (cs : List Entry) (hops : Nat)

theorem solve_capture_or : solve (.capture name (.or a b)) cs hops =
    solve (.or (.capture name a) (.capture name b)) cs hops := by
  rcases Nat.lt_or_ge maxGenerations hops with hfar | hlimit
  · rw [solve_tooFar hfar, solve_tooFar hfar]
  · simp only [solve_capture hlimit, solve_or hlimit, Trail.map_append]

theorem parallel_capture_and : Trail.Parallel SameCaptures
    (solve (.capture name (.and a b)) cs hops) (solve (.and (.capture name a) b) cs hops) := by
  rcases Nat.lt_or_ge maxGenerations hops with hfar | hlimit
  · rw [solve_tooFar hfar, solve_tooFar hfar]
    exact .failed _
  · simp only [solve_capture hlimit, solve_and hlimit]
    refine .map_left (parallel_map_product (P := fun _ => True) ?_ (fun _ _ => trivial) _)
    intro s t _
    exact sameCaptures_of_moved s.witness s.captured t.captured _

theorem parallel_capture_parent : Trail.Parallel SameCaptures
    (solve (.capture name (.parent a b)) cs hops)
    (solve (.parent (.capture name a) b) cs hops) := by
  rcases Nat.lt_or_ge maxGenerations hops with hfar | hlimit
  · rw [solve_tooFar hfar, solve_tooFar hfar]
    exact .failed _
  · simp only [solve_capture hlimit, solve_parent hlimit]
    refine .map_left (.each (R := Eq) (List.forall₂_same.2 fun _ _ => rfl) ?_)
    rintro c _ rfl
    -- the child binds the name to its own witness, which is the candidate
    refine parallel_map_product (P := fun s => s.witness = c) ?_
      (fun s hs => witness_eq_of_mem_finds hs) _
    rintro s t rfl
    exact sameCaptures_of_moved s.witness s.captured t.captured _

end Captures

/-- **Filters and captures can be pushed to the witness.**  A filter finds the same solutions either
way, in order and with repetitions: around an alternative the two searches are the same one,
failures included, around a conjunction it is enough that one of the two ways does not fail, and
around `>` neither may fail.  A capture finds the same witnesses in the same order, with the same
captures at each position, whether the search fails or not. -/
theorem pushed_to_witness (a b : Expr) (field name : String) (cs : List Entry) (hops : Nat) :
    ((solve (.filter (.and a b) field) cs hops).ending = none ∨
        (solve (.and (.filter a field) b) cs hops).ending = none →
      (solve (.filter (.and a b) field) cs hops).finds =
        (solve (.and (.filter a field) b) cs hops).finds) ∧
    solve (.filter (.or a b) field) cs hops =
      solve (.or (.filter a field) (.filter b field)) cs hops ∧
    ((solve (.filter (.parent a b) field) cs hops).ending = none →
      (solve (.parent (.filter a field) b) cs hops).ending = none →
      (solve (.filter (.parent a b) field) cs hops).finds =
        (solve (.parent (.filter a field) b) cs hops).finds) ∧
    solve (.capture name (.or a b)) cs hops =
      solve (.or (.capture name a) (.capture name b)) cs hops ∧
    Trail.Parallel SameCaptures (solve (.capture name (.and a b)) cs hops)
      (solve (.and (.capture name a) b) cs hops) ∧
    Trail.Parallel SameCaptures (solve (.capture name (.parent a b)) cs hops)
      (solve (.parent (.capture name a) b) cs hops) :=
  ⟨finds_filter_and, solve_filter_or a b field cs hops, finds_filter_parent,
    solve_capture_or a b name cs hops, parallel_capture_and a b name cs hops,
    parallel_capture_parent a b name cs hops⟩

/-- Among a book with a date and an article without one, both in a periodical, a date is asked of
the entry that is in a periodical and of the entry that stands beside a book. -/
theorem pushed_to_witness_of_two_candidates :
    let series : Entry := ⟨[0], "k", .periodical, [], []⟩
    let cs : List Entry :=
      [⟨[1], "k", .book, [("date", .date ⟨1999, none, none⟩)], [series]⟩,
        ⟨[2], "k", .article, [], [series]⟩]
    let beside : Expr := .and .any (.type .book)
    let within : Expr := .parent .any (.type .periodical)
    (solve (.filter beside "date") cs 1).ending = none ∧
      (solve (.filter within "date") cs 1).ending = none ∧
      (solve (.parent (.filter .any "date") (.type .periodical)) cs 1).ending = none ∧
      (solve (.filter beside "date") cs 1).finds =
        (solve (.and (.filter .any "date") (.type .book)) cs 1).finds ∧
      (solve (.filter within "date") cs 1).finds =
        (solve (.parent (.filter .any "date") (.type .periodical)) cs 1).finds := by
  intro series cs beside within
  have hbeside := (view_solve (x := .filter beside "date") rfl cs 1 (by decide)).2
  have hwithin := (view_solve (x := .filter within "date") rfl cs 1 (by decide)).2
  have hpushed := (view_solve (x := .parent (.filter .any "date") (.type .periodical)) rfl cs 1
    (by decide)).2
  exact ⟨hbeside, hwithin, hpushed,
    (pushed_to_witness .any (.type .book) "date" "n" cs 1).1 (Or.inl hbeside),
    (pushed_to_witness .any (.type .periodical) "date" "n" cs 1).2.2.1 hwithin hpushed⟩

end Search

end Bibliograph
