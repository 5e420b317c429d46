import Bibliograph.Proofs.Entry.Level
import Bibliograph.Proofs.Sequence
import Mathlib.Data.List.Forall2
import Mathlib.Data.List.Perm.Subperm

/-!
# Equal entries

Entries are equal if their types are, their fields have equal values under the same names, and their
parents are equal in order.  What tells the works of a graph apart takes no part in it: a work that
several entries share in one graph may be there once for each of them in the other.  Still the two
graphs look the same along every path.

The fields of an entry are a mapping, so no name occurs twice among them.  Without that the numbers
of fields could agree although the names do not.

Main definitions:

* `Entry.NamesDistinct`: neither an entry nor any of its ancestors has two fields of one name;
* `Entry.Alike`: equality of entries whose fields are mappings.

Main results:

* `Value.isPresent_of_same`: equal values are present together;
* `Entry.same_iff`: equality of entries, part by part;
* `Entry.rel_lookup_of_sameFields`: equal fields have equal values under every name;
* `Entry.Alike.level`: equal entries have equal levels of ancestors.
-/

set_option autoImplicit false

namespace Bibliograph

/-! ### Equal values -/

namespace Value

theorem isEmpty_of_sameAll {xs ys : List Value} (h : sameAll xs ys = true) :
    xs.isEmpty = ys.isEmpty := by
  cases xs <;> cases ys <;> simp_all [sameAll]

theorem isEmpty_of_length_eq {α : Type} {xs ys : List α} (h : xs.length = ys.length) :
    xs.isEmpty = ys.isEmpty := by
  cases xs <;> cases ys <;> simp_all

/-- **Equal values are present together.**  A collection equals only one of its own kind, and a
number, which equals numbers of other kinds, is always present. -/
theorem isPresent_of_same {v w : Value} (h : v.same w = true) : v.isPresent = w.isPresent := by
  cases v <;> cases w <;> simp_all [same, isPresent, sameNumber, number?]
  case list.list => exact isEmpty_of_sameAll h
  case tuple.tuple => exact isEmpty_of_sameAll h
  case mapping.mapping => exact isEmpty_of_length_eq h.1

end Value

namespace Entry

/-! ### Equal entries, part by part -/

theorem sameAll_iff {ds es : List Entry} :
    sameAll ds es = true ↔ List.Forall₂ (fun d e => d.same e = true) ds es := by
  induction ds generalizing es with
  | nil => cases es <;> simp [sameAll]
  | cons d ds ih => cases es <;> simp [sameAll, ih]

/-- Entries are equal if their types, their fields and their parents are. -/
theorem same_iff {d e : Entry} :
    d.same e = true ↔ d.type = e.type ∧ sameFields d.fields e.fields = true ∧
      List.Forall₂ (fun p q => p.same q = true) d.parents e.parents := by
  cases d
  simp [same, sameAll_iff, and_assoc]

/-! ### Equal fields -/

/-- Of two equal sets of fields the first one has no name that the second one lacks. -/
theorem exists_lookup_of_sameFields {fs gs : List (String × Value)}
    (h : sameFields fs gs = true) {f : String × Value} (hf : f ∈ fs) :
    ∃ w, gs.lookup f.1 = some w ∧ f.2.same w = true := by
  rw [sameFields, Bool.and_eq_true, List.all_eq_true] at h
  have hfield := h.2 f hf
  cases hw : gs.lookup f.1 with
  | none => simp [hw] at hfield
  | some w => exact ⟨w, rfl, by simpa [hw] using hfield⟩

theorem mem_of_lookup_eq_some {fs : List (String × Value)} {name : String} {v : Value}
    (h : fs.lookup name = some v) : (name, v) ∈ fs := by
  obtain ⟨before, after, rfl, -⟩ := List.lookup_eq_some_iff.1 h
  exact List.mem_append_right _ (List.mem_cons_self ..)

theorem mem_keys_of_lookup_eq_some {fs : List (String × Value)} {name : String} {v : Value}
    (h : fs.lookup name = some v) : name ∈ Assoc.keys fs :=
  List.mem_map_of_mem (mem_of_lookup_eq_some h)

theorem not_mem_keys_of_lookup_eq_none {fs : List (String × Value)} {name : String}
    (h : fs.lookup name = none) : name ∉ Assoc.keys fs := by
  intro hname
  obtain ⟨f, hf, rfl⟩ := List.mem_map.1 hname
  have hne := List.lookup_eq_none_iff.1 h f hf
  simp at hne

/-- Equal sets of fields have the same names: as many, and none that the other one lacks. -/
theorem perm_keys_of_sameFields {fs gs : List (String × Value)} (hfs : (Assoc.keys fs).Nodup)
    (h : sameFields fs gs = true) : (Assoc.keys fs).Perm (Assoc.keys gs) := by
  have hsubset : Assoc.keys fs ⊆ Assoc.keys gs := by
    intro name hname
    obtain ⟨f, hf, rfl⟩ := List.mem_map.1 hname
    obtain ⟨w, hw, -⟩ := exists_lookup_of_sameFields h hf
    exact mem_keys_of_lookup_eq_some hw
  have hlength : (Assoc.keys gs).length ≤ (Assoc.keys fs).length := by
    rw [sameFields, Bool.and_eq_true, beq_iff_eq] at h
    simp [Assoc.keys, h.1]
  exact (hfs.subperm hsubset).perm_of_length_le hlength

/-- **Equal sets of fields have equal values under every name**, or none. -/
theorem rel_lookup_of_sameFields {fs gs : List (String × Value)} (hfs : (Assoc.keys fs).Nodup)
    (h : sameFields fs gs = true) (name : String) :
    Option.Rel (fun v w => v.same w = true) (fs.lookup name) (gs.lookup name) := by
  cases hv : fs.lookup name with
  | some v =>
      obtain ⟨w, hw, hsame⟩ := exists_lookup_of_sameFields h (mem_of_lookup_eq_some hv)
      rw [hw]
      exact .some hsame
  | none =>
      cases hw : gs.lookup name with
      | none => exact .none
      | some w =>
          have hname := (perm_keys_of_sameFields hfs h).mem_iff.2 (mem_keys_of_lookup_eq_some hw)
          exact absurd hname (not_mem_keys_of_lookup_eq_none hv)

/-! ### Fields that are mappings -/

/-- Neither the entry nor any of its ancestors has two fields of one name. -/
def NamesDistinct (e : Entry) : Prop :=
  ∀ n : Nat, ∀ d ∈ e.level n, (Assoc.keys d.fields).Nodup

theorem namesDistinct_iff {e : Entry} :
    e.NamesDistinct ↔ (Assoc.keys e.fields).Nodup ∧ ∀ p ∈ e.parents, p.NamesDistinct := by
  constructor
  · intro h
    refine ⟨h 0 e (List.mem_singleton_self e), fun p hp n d hd => h (n + 1) d ?_⟩
    rw [level_succ_eq_flatMap_parents]
    exact List.mem_flatMap.2 ⟨p, hp, hd⟩
  · rintro ⟨hfields, hparents⟩ n d hd
    cases n with
    | zero =>
        rw [List.mem_singleton.1 hd]
        exact hfields
    | succ n =>
        rw [level_succ_eq_flatMap_parents] at hd
        obtain ⟨p, hp, hd⟩ := List.mem_flatMap.1 hd
        exact hparents p hp n d hd

theorem NamesDistinct.of_closed {e : Entry} {ds : List Entry} (he : e ∈ ds)
    (hclosed : ∀ d ∈ ds, ∀ p ∈ d.parents, p ∈ ds)
    (hfields : ∀ d ∈ ds, (Assoc.keys d.fields).Nodup) : e.NamesDistinct := by
  intro n d hd
  exact hfields d (mem_of_mem_level_of_closed he hclosed hd)

theorem mem_of_entriesOnly {key : String} {parents : List (Entry ⊕ Value)} {ps : List Entry}
    (h : entriesOnly key parents = .ok ps) {p : Entry} (hp : p ∈ ps) : .inl p ∈ parents := by
  induction parents generalizing ps with
  | nil =>
      cases h
      cases hp
  | cons q rest ih =>
      cases q with
      | inr v => cases h
      | inl e =>
          obtain ⟨es, hes, rfl⟩ := map_eq_ok_iff.1 h
          rcases List.mem_cons.1 hp with rfl | hp
          · exact List.mem_cons_self ..
          · exact List.mem_cons_of_mem _ (ih hes hp)

/-- **Making an entry gives its fields distinct names**, since a later value of a field replaces an
earlier one. -/
theorem namesDistinct_of_build {id : Identity} {key type : String} {fields : List (String × Value)}
    {parents : List (Entry ⊕ Value)} {e : Entry} (h : build id key type fields parents = .ok e)
    (hparents : ∀ p : Entry, .inl p ∈ parents → p.NamesDistinct) : e.NamesDistinct := by
  obtain ⟨t, -, h⟩ := bind_eq_ok_iff.1 h
  obtain ⟨ps, hps, h⟩ := bind_eq_ok_iff.1 h
  cases h
  exact namesDistinct_iff.2 ⟨Assoc.nodup_keys_ofList fields,
    fun p hp => hparents p (mem_of_entriesOnly hps hp)⟩

/-! ### Equality along the paths -/

/-- Equality of entries, where the fields of the first one and of its ancestors are mappings. -/
def Alike (d e : Entry) : Prop :=
  d.NamesDistinct ∧ d.same e = true

namespace Alike

variable {d e : Entry}

theorem type_eq (h : Alike d e) : d.type = e.type :=
  (same_iff.1 h.2).1

/-- Equal entries have equal values in every field, or none. -/
theorem rel_get? (h : Alike d e) (name : String) :
    Option.Rel (fun v w => v.same w = true) (d.get? name) (e.get? name) := by
  have hfields := (same_iff.1 h.2).2.1
  have hrel := rel_lookup_of_sameFields (namesDistinct_iff.1 h.1).1 hfields name
  unfold get?
  revert hrel
  generalize d.fields.lookup name = u, e.fields.lookup name = u'
  rintro (hsame | -)
  · rename_i v w
    have hpresent := Value.isPresent_of_same hsame
    rw [Option.filter_some, Option.filter_some, hpresent]
    split
    · exact .some hsame
    · exact .none
  · exact .none

theorem has_eq (h : Alike d e) (name : String) : d.has name = e.has name := by
  have hrel := h.rel_get? name
  unfold has
  revert hrel
  generalize d.get? name = u, e.get? name = u'
  rintro (- | -) <;> rfl

theorem parents (h : Alike d e) : List.Forall₂ Alike d.parents e.parents :=
  (List.forall₂_and_left d.parents e.parents).2
    ⟨(namesDistinct_iff.1 h.1).2, (same_iff.1 h.2).2.2⟩

/-- **Equal entries have equal levels of ancestors**, however works are shared in the two graphs. -/
theorem level (h : Alike d e) (n : Nat) : List.Forall₂ Alike (d.level n) (e.level n) := by
  induction n with
  | zero => exact .cons h .nil
  | succ n ih => exact List.rel_flatMap ih fun _ _ hc => hc.parents

theorem levels (h : Alike d e) (n : Nat) : List.Forall₂ Alike (d.levels n) (e.levels n) := by
  induction n with
  | zero => exact .nil
  | succ n ih =>
      rw [levels_succ, levels_succ]
      exact List.rel_append ih (h.level (n + 1))

end Alike

end Entry

end Bibliograph
