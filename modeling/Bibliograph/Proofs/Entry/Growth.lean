import Bibliograph.Proofs.Entry.Level
import Mathlib.Logic.Relation

/-!
# Entries with more in them

An entry is below another one if the other one has all that it has: the same type, every field that
it has, and above each of its parents a parent.  The other one may have more fields, more parents,
and its parents in another order, and so may its ancestors.

Main definitions:

* `Entry.Below`: the other entry has all that this one has;
* `Entry.Extended`: one field more, one parent more, or another order of the parents, in the entry
  itself or in one of its ancestors.

Main results:

* `Entry.Below.refl`, `Entry.Below.trans`: being below is a preorder;
* `Entry.below_of_extended`, `Entry.below_of_changes`: an entry is below what becomes of it by any
  number of changes.
-/

set_option autoImplicit false

namespace Bibliograph.Entry

open Relation

/-- The second entry has the type of the first one, every field that the first one has, and a parent
above each of its parents. -/
def Below (d e : Entry) : Prop :=
  d.type = e.type ∧ (∀ field, d.has field = true → e.has field = true) ∧
    ∀ p ∈ d.parents, ∃ q ∈ e.parents, Below p q
termination_by sizeOf d
decreasing_by exact sizeOf_of_mem_parents ‹_›

namespace Below

variable {d e : Entry}

theorem mk (htype : d.type = e.type) (hfields : ∀ field, d.has field = true → e.has field = true)
    (hparents : ∀ p ∈ d.parents, ∃ q ∈ e.parents, Below p q) : Below d e := by
  rw [Below]
  exact ⟨htype, hfields, hparents⟩

theorem type_eq (h : Below d e) : d.type = e.type := by
  rw [Below] at h
  exact h.1

theorem has (h : Below d e) {field : String} (hfield : d.has field = true) :
    e.has field = true := by
  rw [Below] at h
  exact h.2.1 field hfield

theorem exists_parent (h : Below d e) {p : Entry} (hp : p ∈ d.parents) :
    ∃ q ∈ e.parents, Below p q := by
  rw [Below] at h
  exact h.2.2 p hp

theorem refl (d : Entry) : Below d d := by
  refine .mk rfl (fun _ hfield => hfield) fun p hp => ?_
  -- the parents are smaller, so the recursion ends
  have := sizeOf_of_mem_parents hp
  exact ⟨p, hp, refl p⟩
termination_by sizeOf d

theorem trans {c d e : Entry} (h : Below c d) (h' : Below d e) : Below c e := by
  refine .mk (h.type_eq.trans h'.type_eq) (fun _ hfield => h'.has (h.has hfield)) fun p hp => ?_
  obtain ⟨q, hq, hpq⟩ := h.exists_parent hp
  obtain ⟨r, hr, hqr⟩ := h'.exists_parent hq
  have := sizeOf_of_mem_parents hp
  exact ⟨r, hr, trans hpq hqr⟩
termination_by sizeOf c

/-- More parents, and in any order. -/
theorem of_subset {ps : List Entry} (h : d.parents ⊆ ps) : Below d { d with parents := ps } :=
  .mk rfl (fun _ hfield => hfield) fun p hp => ⟨p, h hp, refl p⟩

end Below

/-! ### Changes -/

/-- One change that takes nothing away: a field is set that was absent or empty, a parent is added
at some place, or the parents are put into another order, here or in an ancestor. -/
inductive Extended : Entry → Entry → Prop
  | field {d : Entry} (name : String) (v : Value) (hnew : d.has name = false) :
      Extended d { d with fields := Assoc.insert name v d.fields }
  | parent {d : Entry} (before after : List Entry) (p : Entry)
      (hparents : d.parents = before ++ after) :
      Extended d { d with parents := before ++ p :: after }
  | order {d : Entry} {ps : List Entry} (hperm : d.parents.Perm ps) :
      Extended d { d with parents := ps }
  | ancestor {d p q : Entry} (before after : List Entry)
      (hparents : d.parents = before ++ p :: after) (hpq : Extended p q) :
      Extended d { d with parents := before ++ q :: after }

/-- Setting a field that was not there leaves the others as they are. -/
theorem has_insert {d : Entry} {name : String} (hnew : d.has name = false) (v : Value)
    {field : String} (hfield : d.has field = true) :
    { d with fields := Assoc.insert name v d.fields : Entry }.has field = true := by
  have hne : field ≠ name := by
    rintro rfl
    rw [hnew] at hfield
    cases hfield
  unfold has get? at hfield ⊢
  rw [Assoc.lookup_insert_of_ne hne]
  exact hfield

/-- **A change leaves the entry below what becomes of it.** -/
theorem below_of_extended {d e : Entry} (h : Extended d e) : Below d e := by
  induction h with
  | @field d name v hnew =>
      exact .mk rfl (fun _ hfield => has_insert hnew v hfield) fun p hp => ⟨p, hp, .refl p⟩
  | parent before after p hparents =>
      refine .of_subset ?_
      rw [hparents]
      intro q hq
      simp only [List.mem_append, List.mem_cons] at hq ⊢
      rcases hq with hq | hq
      · exact .inl hq
      · exact .inr (.inr hq)
  | order hperm => exact .of_subset hperm.subset
  | @ancestor d p q before after hparents _ ih =>
      refine .mk rfl (fun _ hfield => hfield) fun c hc => ?_
      rw [hparents, List.mem_append, List.mem_cons] at hc
      rcases hc with hc | rfl | hc
      · exact ⟨c, by simp [hc], .refl c⟩
      · exact ⟨q, by simp, ih⟩
      · exact ⟨c, by simp [hc], .refl c⟩

/-- **Any number of changes leaves the entry below what becomes of it.** -/
theorem below_of_changes {d e : Entry} (h : ReflTransGen Extended d e) : Below d e := by
  induction h with
  | refl => exact .refl d
  | tail _ hstep ih => exact ih.trans (below_of_extended hstep)

end Bibliograph.Entry
