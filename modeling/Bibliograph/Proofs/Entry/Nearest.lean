import Bibliograph.Proofs.Entry.Ancestry
import Bibliograph.Proofs.Entry.Equality

/-!
# The nearest value

A field is looked for in an entry and then in its ancestors, the nearest generation first.  An
ancestor that was asked is not asked again.  For what is found this makes no difference: the second
time it would have no value either, so the first value along the visited ancestors is the first
value along the levels, in which all paths are followed.

Main results:

* `Entry.outcome_askAlong`: asking along a trail gives the first value of its finds, or else the
  failure that ends it;
* `Entry.findSome?_fresh`: passing over what was asked does not change the first value;
* `Entry.Coherent.outcome_resolve`: the nearest value is the first one along the levels;
* `Entry.Alike.rel_resolve`: equal entries have equal nearest values, however the works of the two
  graphs are shared.
-/

set_option autoImplicit false

namespace Bibliograph.Entry

/-! ### Asking -/

/-- **Asking along a trail gives the first value** of its finds, or else what ends it. -/
theorem outcome_askAlong {β : Type} (f : Entry → Option β) (t : Trail NestingFault Entry) :
    (askAlong f t).outcome = match t.finds.findSome? f, t.ending with
      | some v, _ => .ok (some v)
      | none, none => .ok none
      | none, some e => .error e := by
  induction t with
  | done => rfl
  | failed e => rfl
  | found d rest ih =>
      rw [askAlong, Trail.finds_found, Trail.ending_found, List.findSome?_cons]
      cases f d with
      | some v => rfl
      | none => exact ih ()

/-- **Passing over what was asked does not change the first value**: it has none. -/
theorem findSome?_fresh {β : Type} {f : Entry → Option β} {seen : List Identity} {es : List Entry}
    (hseen : ∀ d ∈ es, d.id ∈ seen → f d = none)
    (hsame : ∀ d ∈ es, ∀ d' ∈ es, d.id = d'.id → d = d') :
    (fresh seen es).findSome? f = es.findSome? f := by
  induction es generalizing seen with
  | nil => rfl
  | cons e es ih =>
      have hsame' : ∀ d ∈ es, ∀ d' ∈ es, d.id = d'.id → d = d' := fun d hd d' hd' =>
        hsame d (List.mem_cons_of_mem _ hd) d' (List.mem_cons_of_mem _ hd')
      by_cases he : e.id ∈ seen
      · have hnone : f e = none := hseen e (List.mem_cons_self ..) he
        rw [fresh, if_pos he, List.findSome?_cons, hnone]
        exact ih (fun d hd => hseen d (List.mem_cons_of_mem _ hd)) hsame'
      · rw [fresh, if_neg he, List.findSome?_cons, List.findSome?_cons]
        cases hv : f e with
        | some v => rfl
        | none =>
            refine ih (fun d hd hmem => ?_) hsame'
            rcases List.mem_cons.1 hmem with hid | hmem
            · rw [hsame d (List.mem_cons_of_mem _ hd) e (List.mem_cons_self ..) hid]
              exact hv
            · exact hseen d (List.mem_cons_of_mem _ hd) hmem

/-! ### The nearest value along the levels -/

namespace Coherent

variable {e : Entry}

theorem findSome?_ancestors {β : Type} (he : e.Coherent) (f : Entry → Option β) :
    e.ancestors.finds.findSome? f = (e.levels maxGenerations).findSome? f := by
  rw [he.finds_ancestors]
  refine findSome?_fresh (fun d _ hmem => absurd hmem List.not_mem_nil) fun d hd d' hd' hid => ?_
  obtain ⟨m, -, -, hmem⟩ := mem_levels_iff.1 hd
  exact he.eq_of_mem_levels hmem hd' hid

/-- If no path has more links than the limit, then no ancestor is too far away. -/
theorem ending_ancestors (he : e.Coherent) (hshallow : e.level (maxGenerations + 1) = []) :
    e.ancestors.ending = none := by
  have hlimit : 1 ≤ maxGenerations := by decide
  rw [Option.eq_none_iff_forall_ne_some]
  intro f hf
  rw [ancestors, (Visited.start e).ending_generations he e.key hlimit, Nat.zero_add] at hf
  obtain ⟨-, d, hd, hparents⟩ := hf
  obtain ⟨p, hp⟩ := List.exists_mem_of_ne_nil _ hparents
  have hbeyond := mem_level_succ hd.mem hp
  rw [hshallow] at hbeyond
  cases hbeyond

/-- **The nearest value is the first one along the levels**, that of the entry itself coming
first. -/
theorem outcome_resolve {β : Type} (he : e.Coherent)
    (hshallow : e.level (maxGenerations + 1) = []) (f : Entry → Option β) :
    (e.resolve f).outcome = .ok ((e :: e.levels maxGenerations).findSome? f) := by
  rw [resolve, outcome_askAlong, Trail.finds_found, Trail.ending_found, List.findSome?_cons,
    List.findSome?_cons, he.findSome?_ancestors, he.ending_ancestors hshallow]
  cases f e with
  | some v => rfl
  | none =>
      cases (e.levels maxGenerations).findSome? f with
      | some v => rfl
      | none => rfl

end Coherent

/-! ### Equal entries -/

theorem rel_findSome? {α α' β β' : Type} {R : α → α' → Prop} {S : β → β' → Prop}
    {f : α → Option β} {g : α' → Option β'} (hfg : ∀ a a', R a a' → Option.Rel S (f a) (g a'))
    {as : List α} {as' : List α'} (h : List.Forall₂ R as as') :
    Option.Rel S (as.findSome? f) (as'.findSome? g) := by
  induction h with
  | nil => exact .none
  | @cons a a' as as' ha _ ih =>
      have hfirst := hfg a a' ha
      rw [List.findSome?_cons, List.findSome?_cons]
      revert hfirst
      generalize f a = u, g a' = u'
      rintro (hv | -)
      · exact .some hv
      · exact ih

/-- **Equal entries have equal nearest values.**  The one graph may have one work where the other
one has several; no path in them may have more links than the limit. -/
theorem Alike.rel_resolve {d e : Entry} (h : Alike d e) (hd : d.Coherent) (he : e.Coherent)
    (hshallow : d.level (maxGenerations + 1) = []) (name : String) :
    ∃ v w, (d.resolve fun c => c.get? name).outcome = .ok v ∧
      (e.resolve fun c => c.get? name).outcome = .ok w ∧
      Option.Rel (fun v w => v.same w = true) v w := by
  have hshallow' : e.level (maxGenerations + 1) = [] := by
    have hlevel := h.level (maxGenerations + 1)
    rw [hshallow] at hlevel
    exact List.forall₂_nil_left_iff.1 hlevel
  have hall : List.Forall₂ Alike (d :: d.levels maxGenerations) (e :: e.levels maxGenerations) :=
    .cons h (h.levels maxGenerations)
  exact ⟨_, _, hd.outcome_resolve hshallow _, he.outcome_resolve hshallow' _,
    rel_findSome? (fun _ _ hc => hc.rel_get? name) hall⟩

end Bibliograph.Entry
