import Bibliograph.Proofs.Entry.Level
import Bibliograph.Proofs.Sequence
import Bibliograph.Proofs.TypeSpec.Assignment
import Mathlib.Logic.Equiv.Fin.Basic

/-!
# Parents in another order

The parents of an entry are looked through from first to last, but a requirement is only met by a
parent that is the only one.  So an entry and the same entry with its parents in another order,
those of its ancestors too, meet the same specifications, and the same parent is cited along with
them.

Main definitions:

* `Entry.Rearrangement`: another order of the parents, at any level;
* `Entry.Rearrangement.image`: where the parent at a position has gone;
* `Entry.Rearrangement.SameVerdicts`: every parent meets the same specifications where it has gone.

Main results:

* `Entry.Rearrangement.SameVerdicts.free_image`: the positions to choose from go along with the
  parents;
* `Entry.Rearrangement.check_eq`: so do the positions that are found;
* `Entry.Rearrangement.canonicalParent_eq`: so does the parent that is cited;
* `TypeSpec.check_rearranged`: these together.
-/

set_option autoImplicit false

namespace Bibliograph

open TypeSpec

namespace Entry

/-- The entry with its parents, and those of its ancestors, in another order. -/
inductive Rearrangement : Entry → Entry → Type
  | mk {d e : Entry} (key_eq : e.key = d.key) (type_eq : e.type = d.type)
      (fields_eq : e.fields = d.fields) (order : Fin d.parents.length ≃ Fin e.parents.length)
      (above : ∀ k, Rearrangement (d.parents.get k) (e.parents.get (order k))) : Rearrangement d e

namespace Rearrangement

variable {d e : Entry}

/-- Where the parents have gone. -/
def order : {d e : Entry} → Rearrangement d e → Fin d.parents.length ≃ Fin e.parents.length
  | _, _, mk _ _ _ order _ => order

/-- The entry as it is. -/
def refl (e : Entry) : Rearrangement e e :=
  .mk rfl rfl rfl (Equiv.refl _) fun k => refl (e.parents.get k)
termination_by sizeOf e
decreasing_by exact sizeOf_of_mem_parents (List.get_mem _ k)

theorem key_eq (r : Rearrangement d e) : e.key = d.key := by
  cases r with
  | mk key_eq => exact key_eq

theorem type_eq (r : Rearrangement d e) : e.type = d.type := by
  cases r with
  | mk _ type_eq => exact type_eq

/-! ### Positions -/

/-- The position to which the parent at a position has gone. -/
def image (r : Rearrangement d e) (i : Nat) : Nat :=
  if h : i < d.parents.length then r.order ⟨i, h⟩ else i

theorem image_val (r : Rearrangement d e) (k : Fin d.parents.length) : r.image k = r.order k :=
  dif_pos k.isLt

theorem length_eq (r : Rearrangement d e) : e.parents.length = d.parents.length :=
  (Fin.equiv_iff_eq.1 ⟨r.order⟩).symm

theorem image_injective (r : Rearrangement d e) : Function.Injective r.image := by
  intro i j h
  have hlength := r.length_eq
  unfold image at h
  split at h <;> split at h
  · exact Fin.mk.inj (r.order.injective (Fin.ext h))
  · have := (r.order ⟨i, ‹_›⟩).isLt
    omega
  · have := (r.order ⟨j, ‹_›⟩).isLt
    omega
  · exact h

/-- Every parent has come from some position. -/
theorem exists_image (r : Rearrangement d e) {j : Nat} (hj : j < e.parents.length) :
    ∃ i, r.image i = j := by
  refine ⟨r.order.symm ⟨j, hj⟩, ?_⟩
  rw [image_val, Equiv.apply_symm_apply]

/-! ### Verdicts -/

/-- Every parent meets the same specifications where it has gone. -/
def SameVerdicts (r : Rearrangement d e) : Prop :=
  ∀ k s, IsMetBy s (e.parents.get (r.order k)) ↔ IsMetBy s (d.parents.get k)

theorem SameVerdicts.qualifies_image_iff {r : Rearrangement d e} (h : r.SameVerdicts)
    {s : TypeSpec} {i : Nat} : Qualifies e s (r.image i) ↔ Qualifies d s i := by
  have hlength := r.length_eq
  by_cases hi : i < d.parents.length
  · rw [r.image_val ⟨i, hi⟩, qualifies_val_iff]
    exact (h ⟨i, hi⟩ s).trans (qualifies_val_iff ⟨i, hi⟩).symm
  · rw [image, dif_neg hi]
    constructor
    · intro hq
      have := hq.lt
      omega
    · intro hq
      exact absurd hq.lt hi

/-- The positions to choose from go along with the parents. -/
theorem SameVerdicts.free_image {r : Rearrangement d e} (h : r.SameVerdicts) (taken : List Nat)
    (s : TypeSpec) : (free e (taken.map r.image) s).Perm ((free d taken s).map r.image) := by
  have hnodup := (nodup_free d taken s).map r.image_injective
  refine (List.perm_ext_iff_of_nodup (nodup_free _ _ _) hnodup).2 fun j => ?_
  constructor
  · intro hj
    obtain ⟨htaken, hq⟩ := mem_free_iff.1 hj
    obtain ⟨i, rfl⟩ := r.exists_image hq.lt
    rw [List.mem_map_of_injective r.image_injective] at htaken
    exact List.mem_map_of_mem (mem_free_iff.2 ⟨htaken, h.qualifies_image_iff.1 hq⟩)
  · intro hj
    obtain ⟨i, hi, rfl⟩ := List.mem_map.1 hj
    obtain ⟨htaken, hq⟩ := mem_free_iff.1 hi
    refine mem_free_iff.2 ⟨?_, h.qualifies_image_iff.2 hq⟩
    rw [List.mem_map_of_injective r.image_injective]
    exact htaken

/-- The choice takes the images of the positions. -/
theorem SameVerdicts.checkParents_eq {r : Rearrangement d e} (h : r.SameVerdicts)
    (taken : List Nat) (rs : List TypeSpec) :
    checkParents e (taken.map r.image) rs = (checkParents d taken rs).map (List.map r.image) := by
  induction rs generalizing taken with
  | nil =>
      rw [checkParents, checkParents]
      rfl
  | cons s rs ih =>
      have hperm := h.free_image taken s
      have hcount : (free e (taken.map r.image) s).length = (free d taken s).length := by
        rw [hperm.length_eq, List.length_map]
      by_cases hone : (free d taken s).length = 1
      · obtain ⟨j, hj⟩ := List.length_eq_one_iff.1 hone
        rw [hj, List.map_singleton, List.perm_singleton] at hperm
        rw [checkParents_of_one hperm, checkParents_of_one hj, ← ih, List.map_append,
          List.map_singleton]
      · rw [checkParents_of_not_one (hcount ▸ hone), checkParents_of_not_one hone, hcount, r.key_eq]
        rfl

theorem SameVerdicts.check_eq {r : Rearrangement d e} (h : r.SameVerdicts) (s : TypeSpec) :
    s.check e = (s.check d).map (List.map r.image) := by
  obtain ⟨here, rs⟩ := s
  rw [check, check, r.type_eq]
  split
  · exact h.checkParents_eq [] rs
  · rw [r.key_eq]
    rfl

/-- **The positions that are found go along with the parents.** -/
theorem check_eq (r : Rearrangement d e) (s : TypeSpec) :
    s.check e = (s.check d).map (List.map r.image) := by
  induction r generalizing s with
  | mk key_eq type_eq fields_eq order above ih =>
      let r : Rearrangement _ _ := mk key_eq type_eq fields_eq order above
      have hverdicts : r.SameVerdicts := fun k t => isMetBy_iff_of_map (ih k t)
      exact hverdicts.check_eq s

/-! ### The parent that is cited -/

/-- The same parent is cited, where it has gone. -/
theorem canonicalParent_eq (r : Rearrangement d e) (specs : List TypeSpec) :
    (d.canonicalParent specs = none ∧ e.canonicalParent specs = none) ∨
      ∃ k, d.canonicalParent specs = some (d.parents.get k) ∧
        e.canonicalParent specs = some (e.parents.get (r.order k)) := by
  induction specs with
  | nil => exact .inl ⟨rfl, rfl⟩
  | cons s specs ih =>
      rw [canonicalParent, canonicalParent, r.check_eq s]
      cases hcheck : s.check d with
      | error m => exact ih
      | ok ps =>
          cases ps with
          | nil => exact ih
          | cons i ps =>
              have hassigned := (check_eq_ok_iff.1 hcheck).2.assignment
              have hi : i < d.parents.length := hassigned.lt (List.mem_cons_self ..)
              have himage : r.image i = r.order ⟨i, hi⟩ := r.image_val ⟨i, hi⟩
              refine .inr ⟨⟨i, hi⟩, List.getElem?_eq_getElem hi, ?_⟩
              change e.parents[r.image i]? = _
              rw [himage]
              exact List.getElem?_eq_getElem (r.order ⟨i, hi⟩).isLt

end Rearrangement

end Entry

namespace TypeSpec

/-- **The order of the parents is irrelevant.**  An entry whose parents are put in another order,
and those of its ancestors as well, meets the same specifications with the same parents, wherever
these have gone, and fails for the same reasons.  So of any specifications it is the same parent
that is cited along with the entry, or none. -/
theorem check_rearranged {d e : Entry} (r : d.Rearrangement e) :
    (∀ s : TypeSpec, (s.IsMetBy e ↔ s.IsMetBy d) ∧
      s.check e = (s.check d).map (List.map r.image)) ∧
    ∀ specs : List TypeSpec, (d.canonicalParent specs = none ∧ e.canonicalParent specs = none) ∨
      ∃ k, d.canonicalParent specs = some (d.parents.get k) ∧
        e.canonicalParent specs = some (e.parents.get (r.order k)) :=
  ⟨fun s => ⟨isMetBy_iff_of_map (r.check_eq s), r.check_eq s⟩, r.canonicalParent_eq⟩

/-- A chapter on a web page, in proceedings, and in a book that is in the same proceedings and in a
periodical.  The parents of the chapter and those of the book are put in the other order. -/
theorem check_rearranged_of_chapter :
    let page : Entry := ⟨[4], "page", .web, [], []⟩
    let journal : Entry := ⟨[3], "journal", .periodical, [], []⟩
    let volume : Entry := ⟨[2], "volume", .proceedings, [], []⟩
    let book : Entry := ⟨[1], "book", .book, [], [journal, volume]⟩
    let turned : Entry := ⟨[1], "book", .book, [], [volume, journal]⟩
    let chapter : Entry := ⟨[0], "chapter", .chapter, [], [page, volume, book]⟩
    let moved : Entry := ⟨[0], "chapter", .chapter, [], [turned, volume, page]⟩
    let bound : TypeSpec := singleParent .any (.specific .proceedings)
    let s : TypeSpec := spec (.specific .chapter) [bound, spec (.specific .web) []]
    s.check chapter = .ok [2, 0] ∧ s.check moved = .ok [0, 2] ∧
      chapter.canonicalParent canonicalSpecs = some volume ∧
      ∃ k : Fin 3, some volume = some (chapter.parents.get k) ∧
        moved.canonicalParent canonicalSpecs = some (moved.parents.get (Fin.rev k)) := by
  intro page journal volume book turned chapter moved bound s
  let above : book.Rearrangement turned :=
    .mk rfl rfl rfl Fin.revPerm fun (k : Fin 2) => match k with
      | 0 => .refl journal
      | 1 => .refl volume
  let r : chapter.Rearrangement moved :=
    .mk rfl rfl rfl Fin.revPerm fun (k : Fin 3) => match k with
      | 0 => .refl page
      | 1 => .refl volume
      | 2 => above
  have hcheck : s.check chapter = .ok [2, 0] := rfl
  have hcited : chapter.canonicalParent canonicalSpecs = some volume := rfl
  obtain ⟨hchecks, hparents⟩ := check_rearranged r
  refine ⟨hcheck, (hchecks s).2.trans (congrArg _ hcheck), hcited, ?_⟩
  rcases hparents canonicalSpecs with ⟨hnone, -⟩ | ⟨k, hk, hmoved⟩
  · cases hcited.symm.trans hnone
  · exact ⟨k, hcited.symm.trans hk, hmoved⟩

end TypeSpec

end Bibliograph
