import Bibliograph.Proofs.Loading.Declared
import Mathlib

/-!
# The fields of a mapping

Every pair of a mapping gives a field, apart from those that stand for the type and the parents and
those that are `null`.  The name of the field is the text of the key.  Keys of different kinds may
have the same text, as the number 1 and the text `1` do; then there is one field for both of them,
with the value of the later one, and the library is loaded all the same.

Main definitions:

* `Loading.fieldPairs`, `Loading.fieldNames`: the pairs of a mapping that give fields, and the texts
  of their keys.

Main results:

* `Loading.fieldsOf_eq_ok_iff`: the fields are the converted pairs, inserted one after another;
* `Loading.nodup_fieldNames_of_texts`: keys that are texts have distinct texts;
* `Loading.loaded_fields_of_mapping`: **which pairs of a mapping have a field of their own**, at
  every depth of a library.
-/

set_option autoImplicit false

namespace Bibliograph.Loading

/-- Whether a pair of a mapping gives a field. -/
def isFieldPair (p : Value × Datum) : Bool :=
  p.1.plain ≠ "type" && p.1.plain ≠ "parent" && match p.2 with
    | .leaf .null => false
    | _ => true

/-- The pairs of a mapping that give fields. -/
def fieldPairs (pairs : List (Value × Datum)) : List (Value × Datum) :=
  pairs.filter isFieldPair

/-- The names of the fields that the pairs of a mapping give, one for each pair. -/
def fieldNames (pairs : List (Value × Datum)) : List String :=
  (fieldPairs pairs).map fun p => p.1.plain

theorem ne_of_isFieldPair {p : Value × Datum} (h : isFieldPair p = true) :
    p.1.plain ≠ "type" ∧ p.1.plain ≠ "parent" ∧ p.2 ≠ .leaf .null := by
  simp only [isFieldPair, ne_eq, Bool.and_eq_true, decide_eq_true_eq] at h
  obtain ⟨⟨htype, hparent⟩, hnull⟩ := h
  refine ⟨htype, hparent, fun hp => ?_⟩
  rw [hp] at hnull
  cases hnull

theorem fieldPairs_cons_of_pos {p : Value × Datum} (h : isFieldPair p = true)
    (pairs : List (Value × Datum)) : fieldPairs (p :: pairs) = p :: fieldPairs pairs :=
  List.filter_cons_of_pos h

theorem fieldPairs_cons_of_neg {p : Value × Datum} (h : isFieldPair p = false)
    (pairs : List (Value × Datum)) : fieldPairs (p :: pairs) = fieldPairs pairs := by
  rw [fieldPairs, List.filter_cons_of_neg (by simp [h])]
  rfl

theorem length_fieldNames (pairs : List (Value × Datum)) :
    (fieldNames pairs).length = (fieldPairs pairs).length :=
  List.length_map _

/-! ### Conversion -/

variable {s : Store} {key : String}

/-- The fields are the converted pairs, inserted one after another, where all keys have texts. -/
theorem fieldsOf_eq_ok_iff {fields fields' : List (String × Value)}
    {pairs : List (Value × Datum)} :
    fieldsOf s key fields pairs = .ok fields' ↔ (∀ p ∈ pairs, p.1.hasPlain = true) ∧
      ∃ vs, List.Forall₂ (fun p v => fieldOf s p.1.plain p.2 = .ok v) (fieldPairs pairs) vs ∧
        fields' = ((fieldNames pairs).zip vs).foldl (fun m p => Assoc.insert p.1 p.2 m) fields := by
  fun_induction fieldsOf s key fields pairs with
  | case1 fields =>
      constructor
      · intro h
        cases h
        exact ⟨by simp, [], .nil, rfl⟩
      · rintro ⟨-, vs, hvs, rfl⟩
        cases hvs
        rfl
  | case2 fields name d rest hname text htype ih =>
      have hno : isFieldPair (name, d) = false := by
        simp [isFieldPair, show name.plain = _ from htype]
      rw [fieldNames, fieldPairs_cons_of_neg hno, List.forall_mem_cons, and_iff_right hname]
      exact ih
  | case3 fields name d rest hname text hparent ih =>
      have hno : isFieldPair (name, d) = false := by
        simp [isFieldPair, show name.plain = _ from hparent]
      rw [fieldNames, fieldPairs_cons_of_neg hno, List.forall_mem_cons, and_iff_right hname]
      exact ih
  | case4 fields name rest hname text htype hparent ih =>
      have hno : isFieldPair (name, .leaf .null) = false := by simp [isFieldPair]
      rw [fieldNames, fieldPairs_cons_of_neg hno, List.forall_mem_cons, and_iff_right hname]
      exact ih
  | case5 fields name rest hname text d hnull htype hparent ih =>
      have hyes : isFieldPair (name, d) = true := by
        have htype' : name.plain ≠ "type" := htype
        have hparent' : name.plain ≠ "parent" := hparent
        simp [isFieldPair, htype', hparent']
      rw [fieldNames, fieldPairs_cons_of_pos hyes, List.forall_mem_cons, and_iff_right hname,
        bind_eq_ok_iff]
      constructor
      · rintro ⟨v, hv, h⟩
        obtain ⟨hnames, vs, hvs, rfl⟩ := (ih v).1 h
        exact ⟨hnames, v :: vs, .cons (mapError_eq_ok_iff.1 hv) hvs, rfl⟩
      · rintro ⟨hnames, vs, hvs, rfl⟩
        obtain ⟨v, vs, hv, hrest, rfl⟩ := List.forall₂_cons_left_iff.1 hvs
        exact ⟨v, mapError_eq_ok_iff.2 hv, (ih v).2 ⟨hnames, vs, hrest, rfl⟩⟩
  | case6 fields name d rest hname =>
      simp [hname]

/-- Keys that are texts have distinct texts. -/
theorem nodup_fieldNames_of_texts {pairs : List (Value × Datum)}
    (htexts : ∀ p ∈ pairs, ∃ t, p.1 = .text t) (hkeys : (pairs.map Prod.fst).Nodup) :
    (fieldNames pairs).Nodup := by
  have hall : (pairs.map fun p => p.1.plain).Nodup := by
    refine List.pairwise_map.2 ((List.pairwise_map.1 hkeys).imp_of_mem ?_)
    intro p q hp hq hne heq
    obtain ⟨t, ht⟩ := htexts p hp
    obtain ⟨u, hu⟩ := htexts q hq
    rw [ht, hu, Value.plain_text, Value.plain_text] at heq
    exact hne (by rw [ht, hu, heq])
  exact hall.sublist (List.filter_sublist.map _)

/-- What a library holds for one of its mappings, at whatever depth this was declared. -/
theorem Unfolds.fields_along {id : Identity} {child : Option EntryType} {d r : Datum} {e : Entry}
    (h : Unfolds s key id child d e) {path : List Nat} {raw : List (Value × Datum)}
    (hr : s.along? d path = some r) (hraw : s.mapping? r = some raw) :
    ∃ a vs, e.along? path = some a ∧
      List.Forall₂ (fun p v => fieldOf s p.1.plain p.2 = .ok v) (fieldPairs raw) vs ∧
      a.fields = Assoc.ofList ((fieldNames raw).zip vs) := by
  obtain ⟨a, id', child', ha, hunfolds⟩ := h.along_datum hr
  obtain ⟨pairs, hpairs, hfields⟩ := hunfolds.fields_eq
  obtain rfl : raw = pairs := Option.some.inj (hraw.symm.trans hpairs)
  obtain ⟨-, vs, hvs, hinsert⟩ := fieldsOf_eq_ok_iff.1 hfields
  exact ⟨a, vs, ha, hvs, hinsert⟩

/-- The entry under the `i`-th key of a library is the unfolding of the datum under it, and the key
has a text. -/
theorem unfolds_of_libraryOf {pairs : List (Value × Datum)} {l : Library}
    (h : (libraryOf s pairs).result = .ok l) {i : Nat} {k : Value} {d : Datum} {e : Entry}
    (hd : pairs[i]? = some (k, d)) (he : l.entries[i]? = some e) :
    k.hasPlain = true ∧ Unfolds s k.plain [i] none d e :=
  (forall₂_zipIdx_iff.1 (result_libraryOf_eq_ok_iff.1 h)).2 i (k, d) e hd he

/-- **Which pairs of a mapping have a field of their own**, in every mapping of a library that is
loaded, at whatever depth.

Each pair that is to give a field is converted.  The fields have distinct names, and under a name
stands the converted value of the last pair whose key has this text.  So each pair has a field of
its own exactly if no two of these keys have the same text, which is so in a mapping whose keys are
texts.  Otherwise values are lost, and the library is returned nevertheless. -/
theorem loaded_fields_of_mapping {pairs : List (Value × Datum)} {l : Library}
    (h : (libraryOf s pairs).result = .ok l) {i : Nat} {k : Value} {d : Datum} {e : Entry}
    (hd : pairs[i]? = some (k, d)) (he : l.entries[i]? = some e) {path : List Nat} {r : Datum}
    {raw : List (Value × Datum)} (hr : s.along? d path = some r) (hraw : s.mapping? r = some raw) :
    ∃ a vs, e.along? path = some a ∧
      List.Forall₂ (fun p v => fieldOf s p.1.plain p.2 = .ok v) (fieldPairs raw) vs ∧
      (a.fields.map Prod.fst).Nodup ∧
      (∀ name, a.fields.lookup name = ((fieldNames raw).zip vs).reverse.lookup name) ∧
      (a.fields = (fieldNames raw).zip vs ↔ (fieldNames raw).Nodup) ∧
      ((∀ p ∈ raw, ∃ t, p.1 = .text t) → (raw.map Prod.fst).Nodup →
        a.fields = (fieldNames raw).zip vs) := by
  obtain ⟨a, vs, ha, hvs, hfields⟩ := (unfolds_of_libraryOf h hd he).2.fields_along hr hraw
  have hlength : (fieldNames raw).length = vs.length := by
    rw [length_fieldNames, hvs.length_eq]
  have hkeys : Assoc.keys ((fieldNames raw).zip vs) = fieldNames raw :=
    List.map_fst_zip (Nat.le_of_eq hlength)
  have hown : a.fields = (fieldNames raw).zip vs ↔ (fieldNames raw).Nodup := by
    rw [hfields, Assoc.ofList_eq_self_iff, hkeys]
  refine ⟨a, vs, ha, hvs, ?_, fun name => ?_, hown, fun htexts hnodup => ?_⟩
  · rw [hfields]
    exact Assoc.nodup_keys_ofList _
  · rw [hfields, Assoc.lookup_ofList]
  · exact hown.2 (nodup_fieldNames_of_texts htexts hnodup)

/-- A number and another text as keys of a parent: both fields are kept. -/
theorem loaded_fields_of_numbered_parent :
    let raw : List (Value × Datum) := [(.text "type", .leaf (.text "book")),
      (.int 1, .leaf (.text "a")), (.text "title", .leaf (.text "b"))]
    let s : Store := ⟨#[.mapping [(.text "type", .leaf (.text "article")),
      (.text "parent", .ref 1)], .mapping raw]⟩
    let l : Library := ⟨[⟨[0], "k", .article, [], [⟨[0, 0], "k", .book,
      [("1", .text "a"), ("title", .text "b")], []⟩]⟩], by simp⟩
    (libraryOf s [(.text "k", .ref 0)]).result = .ok l ∧ s.along? (.ref 0) [0] = some (.ref 1) ∧
      ∃ e a vs, l.entries[0]? = some e ∧ e.along? [0] = some a ∧
        a.fields = (fieldNames raw).zip vs := by
  intro raw s l
  have hloaded : (libraryOf s [(.text "k", .ref 0)]).result = .ok l := by cbv
  have hpair : [(Value.text "k", Datum.ref 0)][0]? = some (.text "k", .ref 0) := rfl
  have hentry : l.entries[0]? = some l.entries.head! := rfl
  have hpath : s.along? (.ref 0) [0] = some (.ref 1) := rfl
  obtain ⟨a, vs, ha, -, -, -, hown, -⟩ := loaded_fields_of_mapping hloaded hpair hentry hpath rfl
  have hnodup : (fieldNames raw).Nodup := by decide +kernel
  exact ⟨hloaded, hpath, l.entries.head!, a, vs, hentry, ha, hown.2 hnodup⟩

/-- A number and a text as keys: the first of the two fields is lost. -/
theorem field_of_number_lost :
    let raw : List (Value × Datum) := [(.text "type", .leaf (.text "book")),
      (.int 1, .leaf (.text "a")), (.text "1", .leaf (.text "b"))]
    fieldNames raw = ["1", "1"] ∧
      (libraryOf ⟨#[.mapping raw]⟩ [(.text "k", .ref 0)]).result.map Library.entries =
        .ok [⟨[0], "k", .book, [("1", .text "b")], []⟩] := by
  intro raw
  refine ⟨by decide +kernel, ?_⟩
  cbv

end Bibliograph.Loading
