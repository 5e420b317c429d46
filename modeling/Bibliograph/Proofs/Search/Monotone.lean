import Bibliograph.Proofs.Entry.Growth
import Bibliograph.Proofs.Search.Ancestor
import Bibliograph.Proofs.Search.Parallel

/-!
# More in the graph, no fewer matches

An expression without a negation asks only for what is there: for a type, for a field, for a parent.
What is there is also there in an entry that has more, so a match stays a match when fields and
parents are added anywhere among the ancestors.  The order of the finds need not stay, since new
parents bring finds of their own, but every find has one above it, with captures of the same names.

Main definitions:

* `Selector.Expr.isPositive`: no part of the expression is a negation;
* `Search.Covers`: each candidate is below one of the others.

Main results:

* `Search.exists_find_of_ending_product`: a product that does not fail has a find made of two that
  its sides have if they do not fail;
* `Search.exists_mem_finds_above`: every find has one above it among candidates with more in them;
* `Search.isMatch_monotone`: **what matches goes on matching when the graph grows**.
-/

set_option autoImplicit false

namespace Bibliograph

/-- Whether no part of an expression is a negation. -/
def Selector.Expr.isPositive : Selector.Expr → Bool
  | type _ => true
  | any => true
  | not _ => false
  | and l r => l.isPositive && r.isPositive
  | or l r => l.isPositive && r.isPositive
  | parent c a => c.isPositive && a.isPositive
  | filter e _ => e.isPositive
  | capture _ e => e.isPositive
  | foreign _ => true

namespace Search

open Selector Entry Relation

/-- A product without a failure asks its right side to the end as soon as its left side has a find,
and goes on with the left side as soon as its right side has one.  So if neither side can end
without a find of some kind, the product has a find that is made of two such finds. -/
theorem exists_find_of_ending_product {ε α β γ : Type} {f : α → β → γ} {t : Trail ε α}
    {u : Unit → Trail ε β} (h : (product f t (.ofTrail u)).ending = none) {p : α → Prop}
    {q : β → Prop} (hleft : t.ending = none → ∃ a ∈ t.finds, p a)
    (hright : (u ()).ending = none → ∃ b ∈ (u ()).finds, q b) :
    ∃ a b, p a ∧ q b ∧ f a b ∈ (product f t (.ofTrail u)).finds := by
  rw [ending_product, Replay.finds_ofTrail, Replay.ending_ofTrail] at h
  have hfinds : t.finds ≠ [] := by
    intro hnil
    rw [if_pos hnil] at h
    obtain ⟨a, ha, -⟩ := hleft h
    rw [hnil] at ha
    cases ha
  rw [if_neg hfinds, Option.or_eq_none_iff] at h
  obtain ⟨b, hb, hqb⟩ := hright h.1
  rw [if_neg (List.ne_nil_of_mem hb)] at h
  obtain ⟨a, ha, hpa⟩ := hleft h.2
  refine ⟨a, b, hpa, hqb, ?_⟩
  rw [finds_product, Replay.finds_ofTrail, Replay.ending_ofTrail, h.1]
  exact List.mem_flatMap.2 ⟨a, ha, List.mem_map_of_mem hb⟩

/-! ### Searches -/

/-- Each of the candidates is below one of the others. -/
def Covers (ds cs : List Entry) : Prop :=
  ∀ c ∈ cs, ∃ d ∈ ds, Below c d

theorem covers_singleton {c d : Entry} (h : Below c d) : Covers [d] [c] := by
  intro e he
  obtain rfl := List.mem_singleton.1 he
  exact ⟨d, List.mem_singleton_self d, h⟩

/-- **Every find has one above it** among candidates with more in them, unless the search among them
fails. -/
theorem exists_mem_finds_above {x : Expr} (hx : x.isPositive = true) {cs ds : List Entry}
    (hcover : Covers ds cs) {hops : Nat} (hending : (solve x ds hops).ending = none)
    {s : Solution} (h : s ∈ (solve x cs hops).finds) :
    ∃ t ∈ (solve x ds hops).finds, SolutionRel Below s t := by
  have hlimit := hops_le_of_mem_finds h
  induction x generalizing cs ds hops s with
  | type t =>
      rw [solve_type hlimit, Trail.finds_ofList] at h ⊢
      obtain ⟨c, hc, rfl⟩ := List.mem_map.1 h
      obtain ⟨hmem, htype⟩ := List.mem_filter.1 hc
      obtain ⟨d, hd, hcd⟩ := hcover c hmem
      rw [hcd.type_eq] at htype
      exact ⟨_, List.mem_map_of_mem (List.mem_filter.2 ⟨hd, htype⟩), .plain hcd⟩
  | any =>
      rw [solve_any hlimit, Trail.finds_ofList] at h ⊢
      obtain ⟨c, hc, rfl⟩ := List.mem_map.1 h
      obtain ⟨d, hd, hcd⟩ := hcover c hc
      exact ⟨_, List.mem_map_of_mem hd, .plain hcd⟩
  | not x _ => cases hx
  | filter x field ih =>
      rw [solve_filter hlimit, Trail.ending_filter] at hending
      rw [solve_filter hlimit, Trail.finds_filter] at h ⊢
      obtain ⟨hs, hfield⟩ := List.mem_filter.1 h
      obtain ⟨t, ht, hst⟩ := ih hx hcover hending hs hlimit
      -- the witness above has every field that the witness has
      exact ⟨t, List.mem_filter.2 ⟨ht, hst.witness.has hfield⟩, hst⟩
  | capture name x ih =>
      rw [solve_capture hlimit, Trail.ending_map] at hending
      rw [solve_capture hlimit, Trail.finds_map] at h ⊢
      obtain ⟨r, hr, rfl⟩ := List.mem_map.1 h
      obtain ⟨t, ht, hrt⟩ := ih hx hcover hending hr hlimit
      refine ⟨_, List.mem_map_of_mem ht, hrt.witness, ?_⟩
      exact List.rel_append hrt.captured (.cons ⟨rfl, hrt.witness⟩ .nil)
  | or l r ihl ihr =>
      rw [Expr.isPositive, Bool.and_eq_true] at hx
      rw [solve_or hlimit, Trail.ending_append, Option.or_eq_none_iff] at hending
      rw [solve_or hlimit] at h ⊢
      rcases Trail.mem_finds_append h with hl | hr
      · obtain ⟨t, ht, hst⟩ := ihl hx.1 hcover hending.1 hl hlimit
        exact ⟨t, Trail.mem_finds_append_iff.2 (.inl ht), hst⟩
      · obtain ⟨t, ht, hst⟩ := ihr hx.2 hcover hending.2 hr hlimit
        exact ⟨t, Trail.mem_finds_append_iff.2 (.inr ⟨hending.1, ht⟩), hst⟩
  | and l r ihl ihr =>
      rw [Expr.isPositive, Bool.and_eq_true] at hx
      rw [solve_and hlimit] at hending h ⊢
      obtain ⟨a, ha, b, hb, rfl⟩ := exists_of_mem_finds_product h
      obtain ⟨a', b', haa', hbb', hfind⟩ := exists_find_of_ending_product hending
        (fun hl => ihl hx.1 hcover hl ha hlimit) (fun hr => ihr hx.2 hcover hr hb hlimit)
      exact ⟨_, hfind, .withCaptures haa'.witness haa' hbb'⟩
  | parent child ancestor ihc iha =>
      rw [Expr.isPositive, Bool.and_eq_true] at hx
      rw [solve_parent hlimit] at hending h ⊢
      obtain ⟨c, hc, hs⟩ := Trail.mem_finds_each h
      obtain ⟨a, ha, b, hb, rfl⟩ := exists_of_mem_finds_product hs
      obtain ⟨d, hd, hcd⟩ := hcover c hc
      have hround := Trail.ending_each_eq_none_iff.1 hending d hd
      -- the parents of the entry above cover the parents of the candidate
      obtain ⟨a', b', haa', hbb', hfind⟩ := exists_find_of_ending_product hround
        (fun hl => ihc hx.1 (covers_singleton hcd) hl ha hlimit)
        (fun hr => iha hx.2 (fun _ hp => hcd.exists_parent hp) hr hb (hops_le_of_mem_finds hb))
      exact ⟨_, (Trail.mem_finds_each_iff hending).2 ⟨d, hd, hfind⟩, .withCaptures hcd haa' hbb'⟩
  | foreign s =>
      rw [solve_foreign hlimit] at h
      cases h

/-! ### Matching -/

/-- What matches is not refused with more in the graph. -/
theorem isMatch_ne_false_of_below {x : Expr} (hx : x.isPositive = true) {d e : Entry}
    (hde : Below d e) (h : isMatch x d = .ok true) : isMatch x e ≠ .ok false := by
  intro hrefused
  rw [isMatch_eq_verdict] at h hrefused
  obtain ⟨s, hs⟩ := Trail.verdict_eq_ok_true_iff.1 h
  obtain ⟨hnone, hending⟩ := Trail.verdict_eq_ok_false_iff.1 hrefused
  obtain ⟨t, ht, -⟩ := exists_mem_finds_above hx (covers_singleton hde) hending hs
  rw [hnone] at ht
  cases ht

/-- **What matches goes on matching when the graph grows.**  Let `x` have no negation, and let its
search for the entry with more in it not run into the limit.  If `x` matches an entry, then it
matches every entry above it, and so it matches what becomes of the entry when fields are added,
parents are added and parents change places, in it and in its ancestors. -/
theorem isMatch_monotone {x : Expr} (hx : x.isNative = true) (hpos : x.isPositive = true)
    {d e : Entry} (hlimit : isMatch x e ≠ .error .tooFar) (h : isMatch x d = .ok true) :
    (Below d e → isMatch x e = .ok true) ∧
      (ReflTransGen Extended d e → isMatch x e = .ok true) := by
  have habove : Below d e → isMatch x e = .ok true := by
    intro hde
    obtain ⟨m, hm⟩ := exists_isMatch_eq_ok hx hlimit
    cases m with
    | true => exact hm
    | false => exact absurd hm (isMatch_ne_false_of_below hpos hde h)
  exact ⟨habove, fun hde => habove (below_of_changes hde)⟩

/-- An article in a dated book goes on matching when the book gets a title and the article a
periodical in front of the book.  An expression that asks for the periodical does not match
before. -/
theorem isMatch_monotone_of_dated_book :
    let periodical : Entry := ⟨[2], "p", .periodical, [], []⟩
    let book : Entry := ⟨[1], "b", .book, [("date", .int 1999)], []⟩
    let titled : Entry := ⟨[1], "b", .book, [("date", .int 1999), ("title", .text "T")], []⟩
    let article : Entry := ⟨[0], "a", .article, [], [book]⟩
    let grown : Entry := ⟨[0], "a", .article, [], [periodical, titled]⟩
    let x : Expr := .parent (.type .article) (.capture "in" (.filter .any "date"))
    x.isPositive = true ∧ ReflTransGen Extended article grown ∧
      isMatch x grown ≠ .error .tooFar ∧ isMatch x article = .ok true ∧
      isMatch x grown = .ok true ∧
      isMatch (.parent .any (.type .periodical)) grown = .ok true ∧
      isMatch (.parent .any (.type .periodical)) article = .ok false := by
  intro periodical book titled article grown x
  have hsteps : ReflTransGen Extended article grown := by
    have htitle : Extended article ⟨[0], "a", .article, [], [titled]⟩ :=
      .ancestor [] [] rfl (.field "title" (.text "T") rfl)
    have hperiodical : Extended ⟨[0], "a", .article, [], [titled]⟩ grown :=
      .parent [] _ periodical rfl
    exact .tail (.single htitle) hperiodical
  have hlimit : isMatch x grown ≠ .error .tooFar := by
    rw [isMatch_eq_meaning rfl (by decide)]
    simp
  have hmatch : isMatch x article = .ok true := by
    rw [isMatch_eq_meaning rfl (by decide)]
    rfl
  refine ⟨rfl, hsteps, hlimit, hmatch, (isMatch_monotone rfl rfl hlimit hmatch).2 hsteps, ?_, ?_⟩
  · rw [isMatch_eq_meaning rfl (by decide)]
    rfl
  · rw [isMatch_eq_meaning rfl (by decide)]
    rfl

end Search

end Bibliograph
