import Bibliograph.Proofs.Loading.FieldNames
import Bibliograph.Proofs.Search.Equality

/-!
# Searching loaded entries

The loader makes an entry anew on every way to it, so that the identity of a loaded entry is the
position of its key with the path that leads to it.  Hence the entries of a library share nothing,
and the fields of each of them have distinct names.  What is said of equal entries holds for them
without further conditions on sharing.

Main results:

* `Entry.exists_along?_of_mem_level`: a path leads to everything on a level;
* `Loading.Unfolds.id_along`: the identity of a loaded entry is the path to it;
* `Loading.Unfolds.coherent`: **loaded entries with the same identity are the same**;
* `Loading.loaded_entries_answered_alike`: **equal entries of libraries are answered alike**.
-/

set_option autoImplicit false

namespace Bibliograph

/-! ### Paths and levels -/

/-- A path leads to everything on a level, by as many links. -/
theorem Entry.exists_along?_of_mem_level {n : Nat} {e a : Entry} (h : a ∈ e.level n) :
    ∃ path : List Nat, path.length = n ∧ e.along? path = some a := by
  induction n generalizing e with
  | zero =>
      rw [level_zero, List.mem_singleton] at h
      exact ⟨[], rfl, by rw [h, along?]⟩
  | succ n ih =>
      rw [level_succ_eq_flatMap_parents, List.mem_flatMap] at h
      obtain ⟨p, hp, ha⟩ := h
      obtain ⟨i, hi⟩ := List.mem_iff_getElem?.1 hp
      obtain ⟨path, hlength, hpath⟩ := ih ha
      refine ⟨i :: path, by rw [List.length_cons, hlength], ?_⟩
      rw [along?_cons_of_some hi, hpath]

namespace Loading

variable {s : Store} {key : String} {id : Identity} {child : Option EntryType} {d : Datum}
  {e a : Entry}

/-! ### Identities -/

theorem Unfolds.id_eq (h : Unfolds s key id child d e) : e.id = id := by
  cases h
  rfl

/-- The identity of what a path leads to is the identity of the entry with the path behind it. -/
theorem Unfolds.id_along (h : Unfolds s key id child d e) {path : List Nat}
    (ha : e.along? path = some a) : a.id = id ++ path := by
  induction path generalizing id child d e with
  | nil =>
      cases ha
      rw [h.id_eq, List.append_nil]
  | cons i path ih =>
      cases hp : e.parents[i]? with
      | none =>
          rw [Entry.along?, hp] at ha
          cases ha
      | some p =>
          rw [Entry.along?_cons_of_some hp] at ha
          obtain ⟨q, -, hunfolds⟩ := h.parent_entry hp
          rw [ih hunfolds ha, List.append_assoc, List.singleton_append]

/-- **Loaded entries with the same identity are the same**, since one path leads to them. -/
theorem Unfolds.coherent (h : Unfolds s key id child d e) : e.Coherent := by
  intro m n a ha b hb hid
  obtain ⟨path, -, hpath⟩ := Entry.exists_along?_of_mem_level ha
  obtain ⟨path', -, hpath'⟩ := Entry.exists_along?_of_mem_level hb
  rw [h.id_along hpath, h.id_along hpath', List.append_cancel_left_eq] at hid
  subst hid
  exact Option.some.inj (hpath.symm.trans hpath')

/-! ### Libraries -/

/-- Every entry of a library is the unfolding of a datum. -/
theorem exists_unfolds_of_mem {pairs : List (Value × Datum)} {l : Library}
    (h : (libraryOf s pairs).result = .ok l) (he : e ∈ l.entries) :
    ∃ key id d, Unfolds s key id none d e := by
  have hlength := (forall₂_zipIdx_iff.1 (result_libraryOf_eq_ok_iff.1 h)).1
  obtain ⟨i, hi⟩ := List.mem_iff_getElem?.1 he
  obtain ⟨hbound, -⟩ := List.getElem?_eq_some_iff.1 hi
  have hpair : pairs[i]? = some pairs[i] := List.getElem?_eq_getElem (hlength ▸ hbound)
  exact ⟨_, _, _, (unfolds_of_libraryOf h hpair hi).2⟩

/-- **Equal entries of libraries are answered alike**, be it of one library or of two: the solutions
of any expression correspond, the searches end in the same way with the same verdict, and if no path
of parent links is longer than the limit, then the nearest dates and addresses are equal. -/
theorem loaded_entries_answered_alike {s' : Store} {pairs pairs' : List (Value × Datum)}
    {l l' : Library} {e' : Entry} (h : (libraryOf s pairs).result = .ok l) (he : e ∈ l.entries)
    (h' : (libraryOf s' pairs').result = .ok l') (he' : e' ∈ l'.entries)
    (hsame : e.same e' = true) (x : Selector.Expr) :
    ((List.Forall₂ Search.SameReport (Search.solutions x e).finds (Search.solutions x e').finds ∧
        (Search.solutions x e).ending = (Search.solutions x e').ending) ∧
      Search.isMatch x e = Search.isMatch x e') ∧
    (e.level (maxGenerations + 1) = [] →
      (∃ v w, e.dateAny.outcome = .ok v ∧ e'.dateAny.outcome = .ok w ∧
        Option.Rel (fun v w => v.same w = true) v w) ∧
      ∃ v w, e.urlAny.outcome = .ok v ∧ e'.urlAny.outcome = .ok w ∧
        Option.Rel (fun v w => v.same w = true) v w) := by
  obtain ⟨key, id, d, hunfolds⟩ := exists_unfolds_of_mem h he
  obtain ⟨key', id', d', hunfolds'⟩ := exists_unfolds_of_mem h' he'
  have halike : Entry.Alike e e' := ⟨hunfolds.namesDistinct, hsame⟩
  exact ⟨Search.reported_alike halike x,
    fun hshallow => Search.nearest_alike halike hunfolds.coherent hunfolds'.coherent hshallow⟩

end Loading

end Bibliograph
