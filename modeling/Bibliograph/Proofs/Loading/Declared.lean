import Bibliograph.Proofs.Loading.Unfolding
import Mathlib.Logic.Function.Iterate

/-!
# Declarations and the entries made of them

An entry and the mapping that declares it can be walked side by side: a path of positions among the
parents leads from the one to an ancestor and from the other to the mapping that this ancestor was
made of.  So what the loader does to one mapping holds at every depth.

Main definitions:

* `Entry.along?`, `Store.along?`: the end of a path of positions among the parents;
* `Store.typeDatum`, `Store.IsUntyped`: the type that a mapping declares, and mappings that declare
  none.

Main results:

* `Loading.Unfolds.along_entry`, `Loading.Unfolds.along_datum`: both sides have the same paths, and
  what stands at their ends belongs together;
* `Loading.Unfolds.type_of_declared`: a type that is declared is the type of the entry;
* `Loading.Unfolds.type_of_chain`: along a chain of untyped parents the default types follow one
  another.
-/

set_option autoImplicit false

namespace Bibliograph

/-! ### Paths -/

/-- The end of a path from an entry, each step of which is a position among the parents. -/
def Entry.along? (e : Entry) : List Nat → Option Entry
  | [] => some e
  | i :: path =>
    match e.parents[i]? with
    | some p => p.along? path
    | none => none

namespace Store

/-- The parents that a datum declares, in order. -/
def declaredParents (s : Store) : Datum → List Datum
  | .leaf _ => []
  | .ref place => s.parentData place

/-- The end of a path from a datum, each step of which is a position among the declared parents. -/
def along? (s : Store) (d : Datum) : List Nat → Option Datum
  | [] => some d
  | i :: path =>
    match (s.declaredParents d)[i]? with
    | some p => s.along? p path
    | none => none

/-- What stands under `type` in a mapping, `null` if nothing does. -/
def typeDatum (s : Store) (d : Datum) : Datum :=
  named "type" ((s.mapping? d).getD [])

/-- No type is declared: there is none, or it is `null`. -/
def IsUntyped (s : Store) (d : Datum) : Prop :=
  s.typeDatum d = .leaf .null

end Store

theorem Entry.along?_cons_of_some {e p : Entry} {i : Nat} (h : e.parents[i]? = some p)
    (path : List Nat) : e.along? (i :: path) = p.along? path := by
  rw [along?, h]

theorem Store.along?_cons_of_some {s : Store} {d p : Datum} {i : Nat}
    (h : (s.declaredParents d)[i]? = some p) (path : List Nat) :
    s.along? d (i :: path) = s.along? p path := by
  rw [along?, h]

namespace Loading

variable {s : Store} {key : String} {id : Identity} {child : Option EntryType} {d : Datum}
  {e : Entry}

/-! ### Walking side by side -/

/-- Behind every parent of an entry stands a declared one. -/
theorem Unfolds.parent_entry (h : Unfolds s key id child d e) {i : Nat} {p : Entry}
    (hp : e.parents[i]? = some p) :
    ∃ q, (s.declaredParents d)[i]? = some q ∧ Unfolds s key (id ++ [i]) (some e.type) q p := by
  cases h with
  | mk hpairs htype hfields hlength hparents =>
      obtain ⟨hi, -⟩ := List.getElem?_eq_some_iff.1 hp
      have hdatum := List.getElem?_eq_getElem (hlength ▸ hi)
      exact ⟨_, hdatum, hparents i _ p hdatum hp⟩

/-- Every declared parent is made. -/
theorem Unfolds.parent_datum (h : Unfolds s key id child d e) {i : Nat} {q : Datum}
    (hq : (s.declaredParents d)[i]? = some q) :
    ∃ p, e.parents[i]? = some p ∧ Unfolds s key (id ++ [i]) (some e.type) q p := by
  cases h with
  | mk hpairs htype hfields hlength hparents =>
      obtain ⟨hi, -⟩ := List.getElem?_eq_some_iff.1 hq
      have hentry := List.getElem?_eq_getElem (hlength.symm ▸ hi)
      exact ⟨_, hentry, hparents i q _ hq hentry⟩

/-- Every path from an entry leads along the declarations too. -/
theorem Unfolds.along_entry (h : Unfolds s key id child d e) {path : List Nat} {a : Entry}
    (ha : e.along? path = some a) :
    ∃ r id' child', s.along? d path = some r ∧ Unfolds s key id' child' r a := by
  induction path generalizing id child d e with
  | nil =>
      cases ha
      exact ⟨d, id, child, rfl, h⟩
  | cons i path ih =>
      cases hp : e.parents[i]? with
      | none =>
          rw [Entry.along?, hp] at ha
          cases ha
      | some p =>
          rw [Entry.along?_cons_of_some hp] at ha
          obtain ⟨q, hq, hunfolds⟩ := h.parent_entry hp
          rw [Store.along?_cons_of_some hq]
          exact ih hunfolds ha

/-- Every path along the declarations leads to an entry too. -/
theorem Unfolds.along_datum (h : Unfolds s key id child d e) {path : List Nat} {r : Datum}
    (hr : s.along? d path = some r) :
    ∃ a id' child', e.along? path = some a ∧ Unfolds s key id' child' r a := by
  induction path generalizing id child d e with
  | nil =>
      cases hr
      exact ⟨e, id, child, rfl, h⟩
  | cons i path ih =>
      cases hq : (s.declaredParents d)[i]? with
      | none =>
          rw [Store.along?, hq] at hr
          cases hr
      | some q =>
          rw [Store.along?_cons_of_some hq] at hr
          obtain ⟨p, hp, hunfolds⟩ := h.parent_datum hq
          rw [Entry.along?_cons_of_some hp]
          exact ih hunfolds hr

/-- The fields of an entry are those of the mapping that it was made of. -/
theorem Unfolds.fields_eq (h : Unfolds s key id child d e) :
    ∃ pairs, s.mapping? d = some pairs ∧ fieldsOf s key [] pairs = .ok e.fields := by
  cases h with
  | mk hpairs htype hfields hlength hparents => exact ⟨_, hpairs, hfields⟩

/-! ### Types -/

theorem Unfolds.typeOf_eq (h : Unfolds s key id child d e) :
    (typeOf s key child (s.typeDatum d)).result = .ok e.type := by
  cases h with
  | mk hpairs htype hfields hlength hparents =>
      rw [Store.typeDatum, hpairs]
      exact htype

/-- A type is found where a datum has a text and this text names it. -/
theorem namedType_eq_ok_iff {t : EntryType} :
    namedType s key d = .ok t ↔
      s.hasPlain d = true ∧ EntryType.ofText (s.plain d) = .ok t := by
  unfold namedType
  split
  · rename_i hplain
    rw [mapError_eq_ok_iff]
    simp [hplain]
  · rename_i hplain
    simp [hplain]

/-- A type that is declared has a text, which names the type of the entry. -/
theorem Unfolds.type_of_declared (h : Unfolds s key id child d e) (hd : ¬ s.IsUntyped d) :
    s.hasPlain (s.typeDatum d) = true ∧
      EntryType.ofText (s.plain (s.typeDatum d)) = .ok e.type := by
  have htype := h.typeOf_eq
  unfold typeOf at htype
  split at htype
  · exact absurd ‹_› hd
  · exact absurd ‹_› hd
  · rwa [Noted.result_ofExcept, namedType_eq_ok_iff] at htype

/-- Without a declared type an entry has the default type of the entry that declares it, so that an
entry at the top has none. -/
theorem Unfolds.type_of_untyped (h : Unfolds s key id child d e) (hd : s.IsUntyped d) :
    ∃ c, child = some c ∧ e.type = c.defaultParent := by
  have htype := h.typeOf_eq
  rw [hd] at htype
  cases child with
  | none => cases htype
  | some c =>
      change (Noted.note _ >>= fun _ => pure c.defaultParent).result = .ok e.type at htype
      rw [Noted.result_bind] at htype
      exact ⟨c, rfl, (Except.ok.inj htype).symm⟩

/-- **Along a chain of untyped parents the default types follow one another.** -/
theorem Unfolds.type_of_chain (h : Unfolds s key id child d e) {chain : List Nat} {b : Entry}
    (hb : e.along? chain = some b)
    (hchain : ∀ link, link ≠ [] → link <+: chain → ∀ x, s.along? d link = some x →
      s.IsUntyped x) :
    b.type = EntryType.defaultParent^[chain.length] e.type := by
  induction chain generalizing id child d e with
  | nil =>
      cases hb
      rfl
  | cons i chain ih =>
      cases hp : e.parents[i]? with
      | none =>
          rw [Entry.along?, hp] at hb
          cases hb
      | some p =>
          rw [Entry.along?_cons_of_some hp] at hb
          obtain ⟨q, hq, hunfolds⟩ := h.parent_entry hp
          have hlink : ∀ link x, link <+: chain → s.along? q link = some x → s.IsUntyped x := by
            intro link x hlink hx
            rw [← Store.along?_cons_of_some hq] at hx
            exact hchain (i :: link) (by simp) (List.cons_prefix_cons.2 ⟨rfl, hlink⟩) x hx
          have huntyped : s.IsUntyped q → p.type = e.type.defaultParent := by
            intro hq'
            obtain ⟨c, hc, htype⟩ := hunfolds.type_of_untyped hq'
            cases hc
            exact htype
          have htype : p.type = e.type.defaultParent :=
            huntyped (hlink [] q (List.nil_prefix) rfl)
          rw [ih hunfolds hb fun link _ hprefix x hx => hlink link x hprefix hx, htype,
            List.length_cons, Function.iterate_succ_apply]

end Loading

end Bibliograph
