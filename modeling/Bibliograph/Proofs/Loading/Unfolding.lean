import Bibliograph.Loading.Basic
import Bibliograph.Proofs.Entry.Equality
import Bibliograph.Proofs.Loading.Noted
import Bibliograph.Proofs.Sequence
import Mathlib.Logic.Relation

/-!
# Libraries are unfoldings

The mappings of a store refer to their parents, and the links may lead back.  An entry is the
unfolding of a mapping: a finite tree that follows the links in their order and shares nothing.
A mapping has an unfolding only if no way of links from it leads into a circle, and the loader finds
the unfolding exactly if there is one.

The loader carries the places that are not on the way from the top.  A place that is taken away is
missing only further down the same way, so a mapping that is met again on another way is no fault.

A circle gives no library, and what is said is a fault of loading, but for one case: an integer with
too many digits in a key or in a declared type has no text, and where it is met first the run breaks
off without naming the entry.

Main definitions:

* `Store.parentData`, `Store.Links`: the parents that a mapping declares;
* `Store.IsCyclic`: a way of links leads from the datum into a circle;
* `Store.LacksText`, `Store.IsOverlong`: a text is missing in a mapping, or somewhere below the
  pairs;
* `Loading.Unfolds`: an entry is the unfolding of a datum;
* `Loading.entryWithin`: loading with the places that are on the way, and a bound on the calls that
  may be open.

Main results:

* `Loading.Unfolds.not_isCyclic`: what has an unfolding leads into no circle;
* `Loading.result_entryOf_eq_ok_iff_unfolds`: the loader finds the unfolding if there is one;
* `Loading.error_of_entryOf`, `Loading.error_of_pushAll`: what stops it;
* `Loading.isCyclic_of_ownAncestor`: it complains of a circle only if there is one;
* `Loading.isOverlong_of_libraryOf`: it breaks off only if a text is missing;
* `Loading.entryWithin_eq`: one more call than there are collections is always enough;
* `Loading.result_libraryOf_eq_ok_iff`: when a library is returned;
* `Loading.Unfolds.namesDistinct`: no loaded entry has two fields of one name;
* `Loading.libraryOf_unfolding`: **a library holds the unfoldings of its pairs**;
* `Loading.overlong_of_self_parent`: a circle of which no fault of loading tells.
-/

set_option autoImplicit false

namespace Bibliograph

open Relation

/-! ### Links -/

namespace Store

/-- The parents that the mapping at a place declares, in order. -/
def parentData (s : Store) (place : Nat) : List Datum :=
  match s.mapping? (.ref place) with
  | some pairs => s.oneOrMany (named "parent" pairs)
  | none => []

/-- One mapping declares another collection as a parent. -/
def Links (s : Store) (p q : Nat) : Prop :=
  .ref q ∈ s.parentData p

/-- A way of links leads from the datum to a mapping that is on the way already. -/
def IsCyclic (s : Store) (d : Datum) : Prop :=
  ∃ p q, d = .ref p ∧ ReflTransGen s.Links p q ∧ TransGen s.Links q q

/-- A key of the mapping at a place has no text, or the type that it declares cannot be shown. -/
def LacksText (s : Store) (place : Nat) : Prop :=
  ∃ pairs, s.mapping? (.ref place) = some pairs ∧
    ((∃ p ∈ pairs, p.1.hasPlain = false) ∨ s.hasLiteral (named "type" pairs) = false)

/-- A key has no text, or a way of links leads from a datum under a key to a mapping in which a
text is missing. -/
def IsOverlong (s : Store) (pairs : List (Value × Datum)) : Prop :=
  ∃ p ∈ pairs, p.1.hasPlain = false ∨
    ∃ place q, p.2 = .ref place ∧ ReflTransGen s.Links place q ∧ s.LacksText q

theorem parentData_eq {s : Store} {place : Nat} {pairs : List (Value × Datum)}
    (h : s.mapping? (.ref place) = some pairs) :
    s.parentData place = s.oneOrMany (named "parent" pairs) := by
  rw [parentData, h]

theorem mem_places_of_mapping? {s : Store} {place : Nat} {pairs : List (Value × Datum)}
    (h : s.mapping? (.ref place) = some pairs) : place ∈ s.places := by
  simp only [mapping?] at h
  split at h
  · rename_i hget
    rw [get?, Array.getElem?_eq_some_iff] at hget
    exact List.mem_range.2 hget.1
  · cases h

end Store

namespace Loading

/-- An entry is the unfolding of a datum: a mapping whose type and fields can be read, with the
unfoldings of its parents in their order. -/
inductive Unfolds (s : Store) (key : String) :
    Identity → Option EntryType → Datum → Entry → Prop
  | mk {id : Identity} {child : Option EntryType} {place : Nat} {pairs : List (Value × Datum)}
      {type : EntryType} {fields : List (String × Value)} {parents : List Entry}
      (hpairs : s.mapping? (.ref place) = some pairs)
      (htype : (typeOf s key child (named "type" pairs)).result = .ok type)
      (hfields : fieldsOf s key [] pairs = .ok fields)
      (hlength : parents.length = (s.parentData place).length)
      (hparents : ∀ (i : Nat) (d : Datum) (e : Entry), (s.parentData place)[i]? = some d →
        parents[i]? = some e → Unfolds s key (id ++ [i]) (some type) d e) :
      Unfolds s key id child (.ref place) ⟨id, key, type, fields, parents⟩

/-! ### One step of the loader -/

section Step

variable {s : Store} {free : List Nat} (id : Identity) (key : String) (child : Option EntryType)

/-- The loading of a mapping that is not on the way to itself. -/
theorem entryOf_of_mem {place : Nat} {pairs : List (Value × Datum)}
    (hpairs : s.mapping? (.ref place) = some pairs) (hfree : place ∈ free) :
    entryOf s free id key child (.ref place) = (do
      let type ← typeOf s key child (named "type" pairs)
      let parents ← (s.parentData place).zipIdx.mapM fun p =>
        entryOf s (free.erase place) (id ++ [p.2]) key (some type) p.1
      let fields ← .ofExcept (fieldsOf s key [] pairs)
      return { id, key, type, fields, parents }) := by
  rw [entryOf.eq_def, Store.parentData_eq hpairs]
  simp only [hpairs, dif_pos hfree]

theorem entryOf_of_not_mem {place : Nat} {pairs : List (Value × Datum)}
    (hpairs : s.mapping? (.ref place) = some pairs) (hfree : place ∉ free) :
    entryOf s free id key child (.ref place) = .fail (.ownAncestor key) := by
  rw [entryOf.eq_def]
  simp only [hpairs, dif_neg hfree]

theorem entryOf_of_no_mapping {d : Datum} (h : s.mapping? d = none) :
    entryOf s free id key child d = .fail (.entryNoMapping key (s.kindName d)) := by
  rw [entryOf]
  intro place pairs _ hpairs
  simp [h] at hpairs

end Step

/-- What an entry shows about the mapping that it was loaded from. -/
theorem result_entryOf_eq_ok_iff {s : Store} {free : List Nat} {id : Identity} {key : String}
    {child : Option EntryType} {d : Datum} {e : Entry} :
    (entryOf s free id key child d).result = .ok e ↔
      ∃ place pairs type parents fields, d = .ref place ∧ s.mapping? (.ref place) = some pairs ∧
        place ∈ free ∧ (typeOf s key child (named "type" pairs)).result = .ok type ∧
        List.Forall₂ (fun p e => (entryOf s (free.erase place) (id ++ [p.2]) key (some type)
          p.1).result = .ok e) (s.parentData place).zipIdx parents ∧
        fieldsOf s key [] pairs = .ok fields ∧ e = ⟨id, key, type, fields, parents⟩ := by
  constructor
  · intro h
    cases d with
    | leaf v => simp [entryOf_leaf] at h
    | ref place =>
        cases hpairs : s.mapping? (.ref place) with
        | none => simp [entryOf_of_no_mapping id key child hpairs] at h
        | some pairs =>
            by_cases hfree : place ∈ free
            · rw [entryOf_of_mem id key child hpairs hfree, Noted.result_bind_eq_ok_iff] at h
              obtain ⟨type, htype, h⟩ := h
              rw [Noted.result_bind_eq_ok_iff] at h
              obtain ⟨parents, hparents, h⟩ := h
              rw [Noted.result_bind_eq_ok_iff] at h
              obtain ⟨fields, hfields, h⟩ := h
              cases h
              exact ⟨place, pairs, type, parents, fields, rfl, hpairs, hfree, htype,
                Noted.result_mapM_eq_ok_iff.1 hparents, hfields, rfl⟩
            · simp [entryOf_of_not_mem id key child hpairs hfree] at h
  · rintro ⟨place, pairs, type, parents, fields, rfl, hpairs, hfree, htype, hparents, hfields, rfl⟩
    rw [entryOf_of_mem id key child hpairs hfree, Noted.result_bind_eq_ok_iff]
    refine ⟨type, htype, ?_⟩
    rw [Noted.result_bind_eq_ok_iff]
    refine ⟨parents, Noted.result_mapM_eq_ok_iff.2 hparents, ?_⟩
    rw [Noted.result_bind_eq_ok_iff]
    exact ⟨fields, hfields, rfl⟩

/-! ### What stops the loader -/

/-- The faults of declared types name the entry, unless the type cannot be shown. -/
theorem fault_of_typeOf_eq_error {s : Store} {key : String} {child : Option EntryType} {d : Datum}
    {f : LoadFault} (h : (typeOf s key child d).result = .error f) :
    f = .untyped key ∨ (∃ v, f = .unknownType key v) ∨ f = .overlong ∧ s.hasLiteral d = false := by
  have htype : typeFault s key d = f → (∃ v, f = .unknownType key v) ∨
      f = .overlong ∧ s.hasLiteral d = false := by
    rintro rfl
    unfold typeFault
    split
    · exact Or.inl ⟨_, rfl⟩
    · exact Or.inr ⟨rfl, by simp_all⟩
  unfold typeOf at h
  split at h
  · cases h
    exact Or.inl rfl
  · rw [Noted.result_bind_eq_error_iff] at h
    rcases h with h | ⟨-, -, h⟩
    · cases h
    · cases h
  · rw [Noted.result_ofExcept] at h
    unfold namedType at h
    split at h
    · cases ht : EntryType.ofText (s.plain d) with
      | error u =>
          rw [ht] at h
          exact Or.inr (htype (Except.error.inj h))
      | ok t =>
          rw [ht] at h
          cases h
    · exact Or.inr (htype (Except.error.inj h))

/-- A type without a text stops the loader. -/
theorem result_typeOf_of_not_hasPlain {s : Store} {d : Datum} (h : s.hasPlain d = false)
    (key : String) (child : Option EntryType) :
    (typeOf s key child d).result = .error .overlong := by
  have hliteral : s.hasLiteral d = false := by
    rw [Bool.eq_false_iff]
    intro hliteral
    rw [Store.hasPlain, Value.hasPlain_of_hasLiteral hliteral] at h
    cases h
  unfold typeOf
  split
  · rw [Store.hasPlain, Store.value, Store.unfold_leaf] at h
    cases h
  · rw [Store.hasPlain, Store.value, Store.unfold_leaf] at h
    cases h
  · simp [namedType, typeFault, h, hliteral]

/-- The faults of fields name the entry and the field, unless a name cannot be written. -/
theorem fault_of_fieldsOf_eq_error {s : Store} {key : String} {fields : List (String × Value)}
    {pairs : List (Value × Datum)} {f : LoadFault} (h : fieldsOf s key fields pairs = .error f) :
    (∃ name fault, f = .field key name fault) ∨
      f = .overlong ∧ ∃ p ∈ pairs, p.1.hasPlain = false := by
  have further {p : Value × Datum} {rest : List (Value × Datum)}
      (h : (∃ name fault, f = .field key name fault) ∨
        f = .overlong ∧ ∃ p ∈ rest, p.1.hasPlain = false) :
      (∃ name fault, f = .field key name fault) ∨
        f = .overlong ∧ ∃ q ∈ p :: rest, q.1.hasPlain = false := by
    rcases h with h | ⟨rfl, q, hq, h⟩
    · exact Or.inl h
    · exact Or.inr ⟨rfl, q, List.mem_cons_of_mem _ hq, h⟩
  fun_induction fieldsOf s key fields pairs with
  | case1 => cases h
  | case2 _ _ _ _ _ _ _ ih => exact further (ih h)
  | case3 _ _ _ _ _ _ _ ih => exact further (ih h)
  | case4 _ _ _ _ _ _ _ ih => exact further (ih h)
  | case5 fields name rest _ _ d _ _ _ ih =>
      cases hv : fieldOf s name.plain d with
      | error fault =>
          rw [hv] at h
          cases h
          exact Or.inl ⟨name.plain, fault, rfl⟩
      | ok v =>
          rw [hv] at h
          exact further (ih v h)
  | case6 fields name d rest hname =>
      cases h
      exact Or.inr ⟨rfl, (name, d), List.mem_cons_self .., by simpa using hname⟩

/-- **Where the loader stops**: at what is no mapping, at a mapping that is on the way to itself, at
a type, in a parent or at the fields. -/
theorem error_of_entryOf {s : Store} {free : List Nat} {id : Identity} {key : String}
    {child : Option EntryType} {d : Datum} {f : LoadFault}
    (h : (entryOf s free id key child d).result = .error f) :
    s.mapping? d = none ∧ f = .entryNoMapping key (s.kindName d) ∨
      ∃ place pairs, d = .ref place ∧ s.mapping? (.ref place) = some pairs ∧
        (place ∉ free ∧ f = .ownAncestor key ∨
          place ∈ free ∧ ((typeOf s key child (named "type" pairs)).result = .error f ∨
            (∃ type, ∃ p ∈ (s.parentData place).zipIdx, (entryOf s (free.erase place)
              (id ++ [p.2]) key (some type) p.1).result = .error f) ∨
            fieldsOf s key [] pairs = .error f)) := by
  cases hpairs : s.mapping? d with
  | none =>
      rw [entryOf_of_no_mapping id key child hpairs] at h
      cases h
      exact Or.inl ⟨rfl, rfl⟩
  | some pairs =>
      cases d with
      | leaf v => cases hpairs
      | ref place =>
          refine Or.inr ⟨place, pairs, rfl, hpairs, ?_⟩
          by_cases hfree : place ∈ free
          · refine Or.inr ⟨hfree, ?_⟩
            rw [entryOf_of_mem id key child hpairs hfree, Noted.result_bind_eq_error_iff] at h
            rcases h with h | ⟨type, -, h⟩
            · exact Or.inl h
            rw [Noted.result_bind_eq_error_iff] at h
            rcases h with h | ⟨parents, -, h⟩
            · obtain ⟨p, hp, h⟩ := Noted.exists_of_result_mapM_eq_error h
              exact Or.inr (Or.inl ⟨type, p, hp, h⟩)
            rw [Noted.result_bind_eq_error_iff] at h
            rcases h with h | ⟨fields, -, h⟩
            · exact Or.inr (Or.inr h)
            · cases h
          · rw [entryOf_of_not_mem id key child hpairs hfree] at h
            cases h
            exact Or.inl ⟨hfree, rfl⟩

/-- A declared parent is linked to. -/
theorem links_of_mem_zipIdx {s : Store} {place q i : Nat}
    (h : (Datum.ref q, i) ∈ (s.parentData place).zipIdx) : s.Links place q := by
  rw [Store.Links, (List.mem_zipIdx' h).2]
  exact List.getElem_mem _

/-! ### Unfoldings -/

theorem forall₂_zipIdx_iff {α β : Type} {R : α × Nat → β → Prop} {as : List α} {bs : List β} :
    List.Forall₂ R as.zipIdx bs ↔ bs.length = as.length ∧
      ∀ (i : Nat) (a : α) (b : β), as[i]? = some a → bs[i]? = some b → R (a, i) b := by
  rw [List.forall₂_iff_get]
  constructor
  · rintro ⟨hlength, h⟩
    refine ⟨by rw [← hlength, List.length_zipIdx], fun i a b ha hb => ?_⟩
    obtain ⟨hi, rfl⟩ := List.getElem?_eq_some_iff.1 ha
    obtain ⟨hi', rfl⟩ := List.getElem?_eq_some_iff.1 hb
    simpa using h i (by simpa using hi) hi'
  · rintro ⟨hlength, h⟩
    refine ⟨by rw [hlength, List.length_zipIdx], fun i hi hi' => ?_⟩
    rw [List.length_zipIdx] at hi
    simpa using h i as[i] bs[i] (List.getElem?_eq_getElem hi) (List.getElem?_eq_getElem hi')

/-- What has an unfolding leads into no circle. -/
theorem Unfolds.not_isCyclic {s : Store} {key : String} {id : Identity} {child : Option EntryType}
    {d : Datum} {e : Entry} (h : Unfolds s key id child d e) : ¬ s.IsCyclic d := by
  rintro ⟨p, q, hd, hway, hcircle⟩
  induction h generalizing p q with
  | @mk id child place pairs type fields parents hpairs htype hfields hlength hparents ih =>
      cases hd
      -- a circle through the mapping itself goes through one of its parents too
      have parent : ∀ r t : Nat, s.Links place r → ReflTransGen s.Links r t →
          TransGen s.Links t t → False := by
        intro r t hr hway hcircle
        obtain ⟨i, hi, hget⟩ := List.mem_iff_getElem.1 hr
        have hd : (s.parentData place)[i]? = some (.ref r) := by
          rw [List.getElem?_eq_getElem hi, hget]
        have he : parents[i]? = some (parents[i]) := List.getElem?_eq_getElem (hlength ▸ hi)
        exact ih i (.ref r) _ hd he r t rfl hway hcircle
      rcases ReflTransGen.cases_head hway with rfl | ⟨r, hr, hway⟩
      · obtain ⟨r, hr, hback⟩ := TransGen.head'_iff.1 hcircle
        exact parent r r hr .refl (.tail' hback hr)
      · exact parent r q hr hway hcircle

/-- An entry that the loader returns is an unfolding, whatever is on the way. -/
theorem unfolds_of_entryOf {s : Store} {free : List Nat} {id : Identity} {key : String}
    {child : Option EntryType} {d : Datum} {e : Entry}
    (h : (entryOf s free id key child d).result = .ok e) : Unfolds s key id child d e := by
  obtain ⟨place, pairs, type, parents, fields, rfl, hpairs, hfree, htype, hparents, hfields, rfl⟩ :=
    result_entryOf_eq_ok_iff.1 h
  obtain ⟨hlength, hparents⟩ := forall₂_zipIdx_iff.1 hparents
  refine .mk hpairs htype hfields hlength fun i d e hd he => ?_
  exact unfolds_of_entryOf (hparents i d e hd he)
termination_by free.length
decreasing_by exact Store.length_erase_lt hfree

/-- Where a datum has an unfolding and nothing that it leads to is on the way, the loader returns
the unfolding. -/
theorem Unfolds.result_entryOf {s : Store} {key : String} {id : Identity}
    {child : Option EntryType} {d : Datum} {e : Entry} (h : Unfolds s key id child d e)
    {free : List Nat} (hfree : ∀ p q pairs, d = .ref p → ReflTransGen s.Links p q →
      s.mapping? (.ref q) = some pairs → q ∈ free) :
    (entryOf s free id key child d).result = .ok e := by
  have hacyclic := h.not_isCyclic
  induction h generalizing free with
  | @mk id child place pairs type fields parents hpairs htype hfields hlength hparents ih =>
      refine result_entryOf_eq_ok_iff.2 ⟨place, pairs, type, parents, fields, rfl, hpairs,
        hfree place place pairs rfl .refl hpairs, htype, ?_, hfields, rfl⟩
      refine forall₂_zipIdx_iff.2 ⟨hlength, fun i d e hd he => ?_⟩
      refine ih i d e hd he ?_ (hparents i d e hd he).not_isCyclic
      rintro p q pairs' rfl hway hq
      have hlink : s.Links place p := List.mem_of_getElem? hd
      -- a way back to the mapping itself would close a circle
      have hne : q ≠ place := by
        rintro rfl
        exact hacyclic ⟨q, q, rfl, .refl, .head' hlink hway⟩
      exact (List.mem_erase_of_ne hne).2 (hfree place q pairs' rfl (.head hlink hway) hq)

/-- **The loader finds the unfolding if there is one.** -/
theorem result_entryOf_eq_ok_iff_unfolds {s : Store} {id : Identity} {key : String}
    {child : Option EntryType} {d : Datum} {e : Entry} :
    (entryOf s s.places id key child d).result = .ok e ↔ Unfolds s key id child d e :=
  ⟨unfolds_of_entryOf, fun h => h.result_entryOf fun _ _ _ _ _ hq =>
    Store.mem_places_of_mapping? hq⟩

/-! ### Circles -/

/-- Where the loader complains of a circle, a way of links leads to a mapping that is on the way
from the top, or into a circle. -/
theorem circle_of_ownAncestor {s : Store} {free : List Nat} {id : Identity} {key k : String}
    {child : Option EntryType} {d : Datum}
    (h : (entryOf s free id key child d).result = .error (.ownAncestor k)) :
    k = key ∧ ∃ p q pairs, d = .ref p ∧ ReflTransGen s.Links p q ∧
      s.mapping? (.ref q) = some pairs ∧ (q ∉ free ∨ TransGen s.Links q q) := by
  rcases error_of_entryOf h with ⟨-, h⟩ | ⟨place, pairs, rfl, hpairs, h⟩
  · cases h
  rcases h with ⟨hfree, h⟩ | ⟨hfree, h | ⟨type, ⟨d, i⟩, hd, h⟩ | h⟩
  · cases h
    exact ⟨rfl, place, place, pairs, rfl, .refl, hpairs, Or.inl hfree⟩
  · rcases fault_of_typeOf_eq_error h with h | ⟨v, h⟩ | ⟨h, -⟩ <;> cases h
  · obtain ⟨rfl, p, q, pairs', rfl, hway, hq, hcircle⟩ := circle_of_ownAncestor h
    have hlink := links_of_mem_zipIdx hd
    refine ⟨rfl, place, q, pairs', rfl, .head hlink hway, hq, ?_⟩
    rcases hcircle with hcircle | hcircle
    · by_cases hne : q = place
      · subst hne
        exact Or.inr (.head' hlink hway)
      · exact Or.inl fun hmem => hcircle ((List.mem_erase_of_ne hne).2 hmem)
    · exact Or.inr hcircle
  · rcases fault_of_fieldsOf_eq_error h with ⟨name, fault, h⟩ | ⟨h, -⟩ <;> cases h
termination_by free.length
decreasing_by exact Store.length_erase_lt hfree

/-- The loader complains of a circle only if there is one. -/
theorem isCyclic_of_ownAncestor {s : Store} {id : Identity} {key k : String}
    {child : Option EntryType} {d : Datum}
    (h : (entryOf s s.places id key child d).result = .error (.ownAncestor k)) :
    k = key ∧ s.IsCyclic d := by
  obtain ⟨hk, p, q, pairs, hd, hway, hq, hcircle⟩ := circle_of_ownAncestor h
  refine ⟨hk, p, q, hd, hway, ?_⟩
  rcases hcircle with hcircle | hcircle
  · exact absurd (Store.mem_places_of_mapping? hq) hcircle
  · exact hcircle

/-! ### Missing texts -/

/-- The loader breaks off only if a way of links leads to a mapping in which a text is missing. -/
theorem lacksText_of_overlong {s : Store} {free : List Nat} {id : Identity} {key : String}
    {child : Option EntryType} {d : Datum}
    (h : (entryOf s free id key child d).result = .error .overlong) :
    ∃ p q, d = .ref p ∧ ReflTransGen s.Links p q ∧ s.LacksText q := by
  rcases error_of_entryOf h with ⟨-, h⟩ | ⟨place, pairs, rfl, hpairs, h⟩
  · cases h
  rcases h with ⟨-, h⟩ | ⟨hfree, h | ⟨type, ⟨d, i⟩, hd, h⟩ | h⟩
  · cases h
  · rcases fault_of_typeOf_eq_error h with h | ⟨v, h⟩ | ⟨-, htype⟩
    · cases h
    · cases h
    · exact ⟨place, place, rfl, .refl, pairs, hpairs, Or.inr htype⟩
  · obtain ⟨p, q, rfl, hway, hq⟩ := lacksText_of_overlong h
    exact ⟨place, q, rfl, .head (links_of_mem_zipIdx hd) hway, hq⟩
  · rcases fault_of_fieldsOf_eq_error h with ⟨name, fault, h⟩ | ⟨-, hname⟩
    · cases h
    · exact ⟨place, place, rfl, .refl, pairs, hpairs, Or.inl hname⟩
termination_by free.length
decreasing_by exact Store.length_erase_lt hfree

/-! ### Open calls -/

/-- The entry of a datum, where `active` are the places on the way to it and at most `depth` calls
may be open at the same time.  Without a call left there is no reason for the failure. -/
def entryWithin (s : Store) (key : String) :
    Nat → List Nat → Identity → Option EntryType → Datum → Noted (Option LoadFault) Entry
  | 0, _, _, _, _ => .fail none
  | depth + 1, active, id, child, d =>
    match d, s.mapping? d with
    | .ref place, some pairs =>
      if place ∈ active then .fail (some (.ownAncestor key))
      else do
        let type ← (typeOf s key child (named "type" pairs)).mapFault some
        let parents ← (s.parentData place).zipIdx.mapM fun p =>
          entryWithin s key depth (place :: active) (id ++ [p.2]) (some type) p.1
        let fields ← (Noted.ofExcept (fieldsOf s key [] pairs)).mapFault some
        return { id, key, type, fields, parents }
    | d, _ => .fail (some (.entryNoMapping key (s.kindName d)))

/-- One call of the loader for a mapping. -/
theorem entryWithin_ref {s : Store} {place : Nat} {pairs : List (Value × Datum)}
    (hpairs : s.mapping? (.ref place) = some pairs) (key : String) (depth : Nat)
    (active : List Nat) (id : Identity) (child : Option EntryType) :
    entryWithin s key (depth + 1) active id child (.ref place) =
      if place ∈ active then .fail (some (.ownAncestor key))
      else do
        let type ← (typeOf s key child (named "type" pairs)).mapFault some
        let parents ← (s.parentData place).zipIdx.mapM fun p =>
          entryWithin s key depth (place :: active) (id ++ [p.2]) (some type) p.1
        let fields ← (Noted.ofExcept (fieldsOf s key [] pairs)).mapFault some
        return { id, key, type, fields, parents } := by
  rw [entryWithin.eq_def]
  simp only [hpairs]

/-- The places that are not on the way bound the calls that are still to be opened. -/
theorem entryWithin_eq {s : Store} {key : String} {depth : Nat} {active free : List Nat}
    (hdepth : free.length < depth) (hnodup : free.Nodup)
    (hfree : ∀ p pairs, s.mapping? (.ref p) = some pairs → (p ∈ free ↔ p ∉ active))
    (id : Identity) (child : Option EntryType) (d : Datum) :
    entryWithin s key depth active id child d =
      (entryOf s free id key child d).mapFault some := by
  induction depth generalizing active free id child d with
  | zero => exact absurd hdepth (Nat.not_lt_zero _)
  | succ depth ih =>
      cases hpairs : s.mapping? d with
      | none =>
          rw [entryOf_of_no_mapping id key child hpairs, entryWithin.eq_def]
          cases d <;> simp only [hpairs] <;> rfl
      | some pairs =>
          cases d with
          | leaf v => cases hpairs
          | ref place =>
              rw [entryWithin_ref hpairs]
              by_cases hmem : place ∈ free
              · have hcalls : ∀ (type : EntryType) (p : Datum × Nat),
                    entryWithin s key depth (place :: active) (id ++ [p.2]) (some type) p.1 =
                      (entryOf s (free.erase place) (id ++ [p.2]) key (some type) p.1).mapFault
                        some := by
                  intro type p
                  have hlt := Store.length_erase_lt hmem
                  refine ih (by omega) (hnodup.erase place) (fun q pairs' hq => ?_) _ _ _
                  rw [hnodup.mem_erase_iff, List.mem_cons, not_or, hfree q pairs' hq]
                rw [if_neg ((hfree place pairs hpairs).1 hmem),
                  entryOf_of_mem id key child hpairs hmem, Noted.mapFault_bind]
                congr 1
                funext type
                simp only [hcalls]
                rw [Noted.mapFault_bind, Noted.mapFault_mapM]
                congr 1
                funext parents
                rw [Noted.mapFault_bind]
                rfl
              · rw [if_pos (not_not.1 fun h => hmem ((hfree place pairs hpairs).2 h)),
                  entryOf_of_not_mem id key child hpairs hmem]
                rfl

/-- **One more call than there are collections is always enough**, and the loader gives the same
entry and the same notices. -/
theorem entryWithin_places {s : Store} {depth : Nat} (hdepth : s.containers.size < depth)
    (key : String) (id : Identity) (child : Option EntryType) (d : Datum) :
    entryWithin s key depth [] id child d = (entryOf s s.places id key child d).mapFault some := by
  have hnodup : s.places.Nodup := List.nodup_range
  refine entryWithin_eq ?_ hnodup (fun p pairs hp => ?_) id child d
  · rw [Store.places, List.length_range]
    exact hdepth
  · simp [Store.mem_places_of_mapping? hp]

/-! ### Libraries -/

theorem Unfolds.key_eq {s : Store} {key : String} {id : Identity} {child : Option EntryType}
    {d : Datum} {e : Entry} (h : Unfolds s key id child d e) : e.key = key := by
  cases h
  rfl

/-- The fields that are read have distinct names, since a later value replaces an earlier one. -/
theorem nodup_keys_of_fieldsOf {s : Store} {key : String} {fields fields' : List (String × Value)}
    {pairs : List (Value × Datum)} (h : fieldsOf s key fields pairs = .ok fields')
    (hfields : (Assoc.keys fields).Nodup) : (Assoc.keys fields').Nodup := by
  fun_induction fieldsOf s key fields pairs with
  | case1 fields =>
      cases h
      exact hfields
  | case2 _ _ _ _ _ _ _ ih => exact ih h hfields
  | case3 _ _ _ _ _ _ _ ih => exact ih h hfields
  | case4 _ _ _ _ _ _ _ ih => exact ih h hfields
  | case5 _ _ _ _ _ _ _ _ _ ih =>
      obtain ⟨v, -, h⟩ := bind_eq_ok_iff.1 h
      exact ih v h (Assoc.nodup_keys_insert hfields _ v)
  | case6 => cases h

/-- **The fields of loaded entries are mappings**, those of their ancestors as well. -/
theorem Unfolds.namesDistinct {s : Store} {key : String} {id : Identity} {child : Option EntryType}
    {d : Datum} {e : Entry} (h : Unfolds s key id child d e) : e.NamesDistinct := by
  induction h with
  | @mk id child place pairs type fields parents _ _ hfields hlength _ ih =>
      refine Entry.namesDistinct_iff.2 ⟨nodup_keys_of_fieldsOf hfields List.nodup_nil, ?_⟩
      intro p hp
      obtain ⟨i, hi, rfl⟩ := List.mem_iff_getElem.1 hp
      have hdatum : i < (s.parentData place).length := by
        rw [← hlength]
        exact hi
      exact ih i _ _ (List.getElem?_eq_getElem hdatum) (List.getElem?_eq_getElem hi)

/-- Pairs are added one after the other, each under a new key. -/
theorem result_pushAll_cons_eq_ok_iff {s : Store} {n : Nat} {l m : Library} {key : Value}
    {d : Datum} {rest : List (Value × Datum)} :
    (pushAll s n l ((key, d) :: rest)).result = .ok m ↔
      key.hasPlain = true ∧ ∃ e k, Unfolds s key.plain [n] none d e ∧ l.push e = .ok k ∧
        (pushAll s (n + 1) k rest).result = .ok m := by
  rw [pushAll]
  constructor
  · intro h
    split at h
    · rename_i hkey
      refine ⟨hkey, ?_⟩
      dsimp only at h
      split at h
      · cases h
      rw [Noted.result_bind_eq_ok_iff] at h
      obtain ⟨e, he, h⟩ := h
      rw [Noted.result_bind_eq_ok_iff] at h
      obtain ⟨k, hk, h⟩ := h
      rw [Noted.result_ofExcept, mapError_eq_ok_iff] at hk
      exact ⟨e, k, unfolds_of_entryOf he, hk, h⟩
    · cases h
  · rintro ⟨hkey, e, k, he, hk, h⟩
    have hnew : l.contains key.plain = false := by
      have hkey := (Library.push_eq_ok_iff.1 hk).1
      rw [he.key_eq] at hkey
      simpa [Library.contains] using hkey
    simp only [hkey, hnew, Bool.false_eq_true, if_false, if_true]
    rw [Noted.result_bind_eq_ok_iff]
    refine ⟨e, result_entryOf_eq_ok_iff_unfolds.2 he, ?_⟩
    rw [Noted.result_bind_eq_ok_iff]
    refine ⟨k, ?_, h⟩
    rw [Noted.result_ofExcept, mapError_eq_ok_iff]
    exact hk

/-- The entries that are added to a library are the unfoldings of the pairs, each of which has a
key with a text. -/
theorem result_pushAll_eq_ok_iff {s : Store} {n : Nat} {l m : Library}
    {pairs : List (Value × Datum)} :
    (pushAll s n l pairs).result = .ok m ↔ ∃ es, m.entries = l.entries ++ es ∧
      List.Forall₂ (fun p e => p.1.1.hasPlain = true ∧ Unfolds s p.1.1.plain [p.2] none p.1.2 e)
        (pairs.zipIdx n) es := by
  induction pairs generalizing n l with
  | nil =>
      have heq : l = m ↔ m.entries = l.entries := by
        cases l
        cases m
        simp [eq_comm]
      simpa [pushAll, Noted.ok] using heq
  | cons p rest ih =>
      obtain ⟨key, d⟩ := p
      rw [result_pushAll_cons_eq_ok_iff, List.zipIdx_cons]
      constructor
      · rintro ⟨hkey, e, k, he, hk, h⟩
        obtain ⟨es, hes, hrest⟩ := ih.1 h
        refine ⟨e :: es, ?_, .cons ⟨hkey, he⟩ hrest⟩
        rw [hes, (Library.push_eq_ok_iff.1 hk).2, List.append_assoc]
        rfl
      · rintro ⟨es, hes, hall⟩
        obtain ⟨e, es, ⟨hkey, he⟩, hrest, rfl⟩ := List.forall₂_cons_left_iff.1 hall
        cases hk : l.push e with
        | error f =>
            -- the keys of the library are distinct, so this one was not there before
            have hdistinct := m.distinct
            rw [hes, List.map_append, List.nodup_append] at hdistinct
            exact absurd rfl (hdistinct.2.2 e.key (Library.push_eq_error_iff.1 hk).1 e.key
              (by simp))
        | ok k =>
            refine ⟨hkey, e, k, he, hk, ih.2 ⟨es, ?_, hrest⟩⟩
            rw [hes, (Library.push_eq_ok_iff.1 hk).2, List.append_assoc]
            rfl

/-- **What stops the adding of pairs** is one of them: a key without a text, a key that is there
already, or a datum of which no entry can be made. -/
theorem error_of_pushAll {s : Store} {n : Nat} {l : Library} {pairs : List (Value × Datum)}
    {f : LoadFault} (h : (pushAll s n l pairs).result = .error f) :
    ∃ p ∈ pairs, p.1.hasPlain = false ∧ f = .overlong ∨
      p.1.hasPlain = true ∧ (f = .duplicateKey ⟨p.1.plain⟩ ∨
        ∃ i, (entryOf s s.places [i] p.1.plain none p.2).result = .error f) := by
  induction pairs generalizing n l with
  | nil => cases h
  | cons p rest ih =>
      obtain ⟨key, d⟩ := p
      rw [pushAll] at h
      split at h
      · rename_i hkey
        dsimp only at h
        split at h
        · cases h
          exact ⟨(key, d), List.mem_cons_self .., Or.inr ⟨hkey, Or.inl rfl⟩⟩
        rw [Noted.result_bind_eq_error_iff] at h
        rcases h with h | ⟨e, he, h⟩
        · exact ⟨(key, d), List.mem_cons_self .., Or.inr ⟨hkey, Or.inr ⟨n, h⟩⟩⟩
        rw [Noted.result_bind_eq_error_iff] at h
        rcases h with h | ⟨m, -, h⟩
        · rw [Noted.result_ofExcept] at h
          cases hpush : l.push e with
          | error fault =>
              rw [hpush] at h
              cases h
              obtain ⟨-, rfl⟩ := Library.push_eq_error_iff.1 hpush
              rw [(unfolds_of_entryOf he).key_eq]
              exact ⟨(key, d), List.mem_cons_self .., Or.inr ⟨hkey, Or.inl rfl⟩⟩
          | ok m =>
              rw [hpush] at h
              cases h
        · obtain ⟨p, hp, hstop⟩ := ih h
          exact ⟨p, List.mem_cons_of_mem _ hp, hstop⟩
      · rename_i hkey
        cases h
        exact ⟨(key, d), List.mem_cons_self .., Or.inl ⟨by simpa using hkey, rfl⟩⟩

theorem result_libraryOf {s : Store} {pairs : List (Value × Datum)} :
    (libraryOf s pairs).result = (pushAll s 0 .empty pairs).result := by
  rw [libraryOf, Noted.result_bind]
  cases (pushAll s 0 .empty pairs).result with
  | error f => rfl
  | ok l =>
      change (Noted.note _ >>= fun _ => pure l).result = _
      rw [Noted.result_bind]
      rfl

/-- **A library is returned exactly if** all keys have texts and its entries are the unfoldings of
the pairs. -/
theorem result_libraryOf_eq_ok_iff {s : Store} {pairs : List (Value × Datum)} {l : Library} :
    (libraryOf s pairs).result = .ok l ↔
      List.Forall₂ (fun p e => p.1.1.hasPlain = true ∧ Unfolds s p.1.1.plain [p.2] none p.1.2 e)
        pairs.zipIdx l.entries := by
  rw [result_libraryOf, result_pushAll_eq_ok_iff]
  simp

/-- A complaint of a circle is about one of the pairs. -/
theorem exists_of_libraryOf_eq_ownAncestor {s : Store} {k : String}
    {pairs : List (Value × Datum)} (h : (libraryOf s pairs).result = .error (.ownAncestor k)) :
    ∃ p ∈ pairs, p.1.plain = k ∧ s.IsCyclic p.2 := by
  rw [result_libraryOf] at h
  obtain ⟨p, hp, ⟨-, h⟩ | ⟨-, h | ⟨i, h⟩⟩⟩ := error_of_pushAll h
  · cases h
  · cases h
  · obtain ⟨hk, hcyclic⟩ := isCyclic_of_ownAncestor h
    exact ⟨p, hp, hk.symm, hcyclic⟩

/-- The loading of a library breaks off only where a text is missing. -/
theorem isOverlong_of_libraryOf {s : Store} {pairs : List (Value × Datum)}
    (h : (libraryOf s pairs).result = .error .overlong) : s.IsOverlong pairs := by
  rw [result_libraryOf] at h
  obtain ⟨p, hp, ⟨hkey, -⟩ | ⟨-, h | ⟨i, h⟩⟩⟩ := error_of_pushAll h
  · exact ⟨p, hp, Or.inl hkey⟩
  · cases h
  · exact ⟨p, hp, Or.inr (lacksText_of_overlong h)⟩

/-- **A library holds the unfoldings of its pairs.**

Loading a mapping comes to an end: with more calls than there are collections in the store no call
is refused, whatever the links are.  If a way of links from one of the pairs leads into a circle,
there is no library, and the fault is one of loading unless an integer with too many digits is to be
turned into text.  A circle is complained of only under the key of a pair from which there is one.
A library is returned exactly if all keys have texts and its entries are the unfoldings of the
pairs, in order. -/
theorem libraryOf_unfolding (s : Store) (pairs : List (Value × Datum)) :
    (∀ (depth : Nat) (key : String) (id : Identity) (child : Option EntryType) (d : Datum),
      s.containers.size < depth → entryWithin s key depth [] id child d =
        (entryOf s s.places id key child d).mapFault some) ∧
    (∀ p ∈ pairs, s.IsCyclic p.2 → ∃ f, (libraryOf s pairs).result = .error f ∧
      (f = .overlong → s.IsOverlong pairs)) ∧
    (∀ k : String, (libraryOf s pairs).result = .error (.ownAncestor k) →
      ∃ p ∈ pairs, p.1.plain = k ∧ s.IsCyclic p.2) ∧
    ∀ l : Library, (libraryOf s pairs).result = .ok l ↔
      List.Forall₂ (fun p e => p.1.1.hasPlain = true ∧ Unfolds s p.1.1.plain [p.2] none p.1.2 e)
        pairs.zipIdx l.entries := by
  refine ⟨fun depth key id child d hdepth => entryWithin_places hdepth key id child d,
    fun p hp hcyclic => ?_, fun k h => exists_of_libraryOf_eq_ownAncestor h,
    fun l => result_libraryOf_eq_ok_iff⟩
  cases h : (libraryOf s pairs).result with
  | error f =>
      refine ⟨f, rfl, ?_⟩
      rintro rfl
      exact isOverlong_of_libraryOf h
  | ok l =>
      obtain ⟨i, hi, rfl⟩ := List.mem_iff_getElem.1 hp
      obtain ⟨hlength, hall⟩ := forall₂_zipIdx_iff.1 (result_libraryOf_eq_ok_iff.1 h)
      have he : l.entries[i]? = some (l.entries.get ⟨i, hlength ▸ hi⟩) :=
        List.getElem?_eq_getElem _
      exact absurd hcyclic (hall i pairs[i] _ (List.getElem?_eq_getElem hi) he).2.not_isCyclic

/-- A mapping that is its own parent makes no library. -/
theorem libraryOf_self_parent : ∃ f, (libraryOf ⟨#[.mapping [(.text "parent", .ref 0)]]⟩
    [(.text "k", .ref 0)]).result = .error f := by
  have hlink : Store.Links ⟨#[.mapping [(.text "parent", .ref 0)]]⟩ 0 0 := by
    simp [Store.Links, Store.parentData, Store.mapping?, Store.get?, Store.oneOrMany, Store.list?,
      named, Value.isText]
  obtain ⟨f, hf, -⟩ := (libraryOf_unfolding _ _).2.1 (.text "k", .ref 0)
    (List.mem_singleton.2 rfl) ⟨0, 0, rfl, .refl, .single hlink⟩
  exact ⟨f, hf⟩

/-- A mapping that is its own parent and declares a number with too many digits as its type: there
is no fault of loading. -/
theorem overlong_of_self_parent :
    let s : Store := ⟨#[.mapping [(.text "type", .leaf (.int (Nat.pow 10 Number.digitLimit))),
      (.text "parent", .ref 0)]]⟩
    s.IsCyclic (.ref 0) ∧ (libraryOf s [(.text "k", .ref 0)]).result = .error .overlong := by
  intro s
  have hlink : s.Links 0 0 := by
    change Datum.ref 0 ∈ [Datum.ref 0]
    exact List.mem_singleton.2 rfl
  have hentry : (entryOf s s.places [0] "k" none (.ref 0)).result = .error .overlong := by
    have hlong : s.hasPlain (.leaf (.int (Nat.pow 10 Number.digitLimit))) = false := by
      rw [Store.hasPlain, Store.value, Store.unfold_leaf]
      exact Number.isWithinLimit_pow_digitLimit
    rw [entryOf_of_mem _ _ _ rfl (by decide), Noted.result_bind]
    rw [show named "type" _ = .leaf (.int (Nat.pow 10 Number.digitLimit)) from rfl,
      result_typeOf_of_not_hasPlain hlong]
    rfl
  refine ⟨⟨0, 0, rfl, .refl, .single hlink⟩, ?_⟩
  rw [result_libraryOf, pushAll]
  simp only [Value.plain_text]
  rw [if_pos (by decide), if_neg (by decide), Noted.result_bind, hentry]
  rfl

end Loading

end Bibliograph
