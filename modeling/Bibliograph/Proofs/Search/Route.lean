import Bibliograph.Proofs.Entry.Level
import Bibliograph.Proofs.Search.Meaning
import Mathlib.Data.List.Forall2

/-!
# What a solution has captured

A solution is found along a route through its expression: of every alternative one side that
succeeds, of a conjunction and of `>` both sides, and nothing inside a negation, which succeeds
because there is nothing to find.  What is left of the expression along the route says what the
solution has captured: the names, in the order in which captures are completed, and how many parent
links lead to each of the entries.

Main definitions:

* `Selector.Expr.captureLevels`: the captures in the order of their completion, each with the number
  of right sides of `>` around it;
* `Search.Route`: what is left of an expression along a successful route, with its witness.

Main results:

* `Search.mem_finds_each`, `Search.exists_of_mem_finds_product`: where the finds of each way to put
  trails together come from;
* `Search.exists_route`: every find has a route, by induction on the expression;
* `Search.reported_in_order`, `Search.exists_of_apply_eq_ok`: the bindings that are reported and
  those that a match gives hold what the solutions have captured;
* `Search.solutions_captured_along_route`: **a solution has captured what its route says**.
-/

set_option autoImplicit false

namespace Bibliograph

namespace Selector.Expr

/-- The captures of an expression that is inside `k` right sides of `>`, a capture behind the ones
inside it, each with the number of right sides of `>` around it. -/
def captureLevels : Nat → Expr → List (String × Nat)
  | _, type _ => []
  | _, any => []
  | k, not e => e.captureLevels k
  | k, and l r => l.captureLevels k ++ r.captureLevels k
  | k, or l r => l.captureLevels k ++ r.captureLevels k
  | k, parent c a => c.captureLevels k ++ a.captureLevels (k + 1)
  | k, filter e _ => e.captureLevels k
  | k, capture n e => e.captureLevels k ++ [(n, k)]
  | _, foreign _ => []

end Selector.Expr

/-! ### Where finds come from -/

namespace Trail

variable {ε α β : Type}

theorem mem_finds_append_iff {t : Trail ε α} {next : Unit → Trail ε α} {a : α} :
    a ∈ (t.append next).finds ↔ a ∈ t.finds ∨ (t.ending = none ∧ a ∈ (next ()).finds) := by
  rw [finds_append]
  cases h : t.ending with
  | none => simp
  | some e => simp

theorem mem_finds_append {t : Trail ε α} {next : Unit → Trail ε α} {a : α}
    (h : a ∈ (t.append next).finds) : a ∈ t.finds ∨ a ∈ (next ()).finds :=
  (mem_finds_append_iff.1 h).imp_right And.right

theorem mem_finds_each {as : List α} {f : α → Trail ε β} {b : β} (h : b ∈ (each as f).finds) :
    ∃ a ∈ as, b ∈ (f a).finds := by
  induction as with
  | nil => cases h
  | cons a as ih =>
      rw [each] at h
      rcases mem_finds_append h with hfirst | hlater
      · exact ⟨a, List.mem_cons_self .., hfirst⟩
      · obtain ⟨c, hc, hb⟩ := ih hlater
        exact ⟨c, List.mem_cons_of_mem _ hc, hb⟩

/-- The first find is in front of all others. -/
theorem first_eq_some_iff {t : Trail ε α} {a : α} :
    t.first = .ok (some a) ↔ ∃ others, t.finds = a :: others := by
  cases t with
  | done => simp [first]
  | failed e => simp [first]
  | found b rest => simp [first]

end Trail

namespace Search

open Selector

/-- What a product finds comes from one find of each side. -/
theorem exists_of_mem_finds_product {ε α β γ : Type} {f : α → β → γ} {t : Trail ε α}
    {u : Unit → Trail ε β} {c : γ} (h : c ∈ (product f t (.ofTrail u)).finds) :
    ∃ a ∈ t.finds, ∃ b ∈ (u ()).finds, c = f a b := by
  rw [finds_product, List.mem_flatMap] at h
  obtain ⟨a, ha, hc⟩ := h
  rw [Replay.finds_ofTrail] at hc
  obtain ⟨b, hb, rfl⟩ := List.mem_map.1 hc
  refine ⟨a, ?_, b, hb, rfl⟩
  split at ha
  · exact List.mem_of_mem_take ha
  · exact ha

/-- A negation finds its candidate, and only if what is negated ends without a find. -/
theorem eq_done_of_mem_finds_refusal {c : Entry} {t : Trail Fault Solution} {s : Solution}
    (h : s ∈ (refusal c t).finds) : t = .done ∧ s = Solution.plain c := by
  cases t with
  | done => exact ⟨rfl, List.mem_singleton.1 h⟩
  | failed e => cases h
  | found a rest => cases h

/-! ### Routes -/

/-- What is left of an expression along a route on which it succeeds among candidates, with the
witness: one side of every alternative, and of a negation nothing but a star. -/
inductive Route : Nat → Expr → List Entry → Expr → Entry → Prop
  | type {hops : Nat} {t : EntryType} {cs : List Entry} {c : Entry} (hc : c ∈ cs)
      (ht : c.type = t) : Route hops (.type t) cs (.type t) c
  | any {hops : Nat} {cs : List Entry} {c : Entry} (hc : c ∈ cs) : Route hops .any cs .any c
  | not {hops : Nat} {x : Expr} {cs : List Entry} {c : Entry} (hc : c ∈ cs)
      (hx : solve x [c] hops = .done) : Route hops (.not x) cs .any c
  | left {hops : Nat} {l r p : Expr} {cs : List Entry} {w : Entry} (h : Route hops l cs p w) :
      Route hops (.or l r) cs p w
  | right {hops : Nat} {l r p : Expr} {cs : List Entry} {w : Entry} (h : Route hops r cs p w) :
      Route hops (.or l r) cs p w
  | and {hops : Nat} {l r p q : Expr} {cs : List Entry} {w v : Entry} (hl : Route hops l cs p w)
      (hr : Route hops r cs q v) : Route hops (.and l r) cs (.and p q) w
  | parent {hops : Nat} {child ancestor p q : Expr} {cs : List Entry} {c w v : Entry} (hc : c ∈ cs)
      (hchild : Route hops child [c] p w) (hancestor : Route (hops + 1) ancestor c.parents q v) :
      Route hops (.parent child ancestor) cs (.parent p q) c
  | filter {hops : Nat} {x p : Expr} {field : String} {cs : List Entry} {w : Entry}
      (h : Route hops x cs p w) (hfield : w.has field = true) :
      Route hops (.filter x field) cs (.filter p field) w
  | capture {hops : Nat} {name : String} {x p : Expr} {cs : List Entry} {w : Entry}
      (h : Route hops x cs p w) : Route hops (.capture name x) cs (.capture name p) w

/-- The witness of a route is one of the candidates. -/
theorem Route.mem {hops : Nat} {x p : Expr} {cs : List Entry} {w : Entry}
    (h : Route hops x cs p w) : w ∈ cs := by
  induction h with
  | type hc _ => exact hc
  | any hc => exact hc
  | not hc _ => exact hc
  | left _ ih => exact ih
  | right _ ih => exact ih
  | and _ _ ihl _ => exact ihl
  | parent hc _ _ _ _ => exact hc
  | filter _ _ ih => exact ih
  | capture _ ih => exact ih

/-- The entries that were captured, each as many parent links away from `e` as is said. -/
def CapturedAt (e : Entry) (captured : List (String × Entry)) (levels : List (String × Nat)) :
    Prop :=
  List.Forall₂ (fun c l => c.1 = l.1 ∧ c.2 ∈ e.level l.2) captured levels

/-- Nothing is found beyond the limit. -/
theorem hops_le_of_mem_finds {x : Expr} {cs : List Entry} {hops : Nat} {s : Solution}
    (h : s ∈ (solve x cs hops).finds) : hops ≤ maxGenerations := by
  by_contra hfar
  rw [solve_tooFar (Nat.not_le.1 hfar)] at h
  cases h

/-- **Every find has a route**, and what it has captured is as far away as the route says.  The
candidates are `hops` parent links away from `e`, as they are throughout a search. -/
theorem exists_route {e : Entry} {x : Expr} {cs : List Entry} {hops : Nat}
    (hcs : ∀ c ∈ cs, c ∈ e.level hops) {s : Solution} (h : s ∈ (solve x cs hops).finds) :
    ∃ p, Route hops x cs p s.witness ∧ CapturedAt e s.captured (p.captureLevels hops) := by
  induction x generalizing cs hops s with
  | type t =>
      rw [solve_type (hops_le_of_mem_finds h), Trail.finds_ofList] at h
      obtain ⟨c, hc, rfl⟩ := List.mem_map.1 h
      obtain ⟨hmem, ht⟩ := List.mem_filter.1 hc
      exact ⟨.type t, .type hmem (of_decide_eq_true ht), .nil⟩
  | any =>
      rw [solve_any (hops_le_of_mem_finds h), Trail.finds_ofList] at h
      obtain ⟨c, hc, rfl⟩ := List.mem_map.1 h
      exact ⟨.any, .any hc, .nil⟩
  | not x _ =>
      rw [solve_not (hops_le_of_mem_finds h)] at h
      obtain ⟨c, hc, hs⟩ := Trail.mem_finds_each h
      obtain ⟨hx, rfl⟩ := eq_done_of_mem_finds_refusal hs
      exact ⟨.any, .not hc hx, .nil⟩
  | or l r ihl ihr =>
      rw [solve_or (hops_le_of_mem_finds h)] at h
      rcases Trail.mem_finds_append h with hl | hr
      · obtain ⟨p, hp, hcaptured⟩ := ihl hcs hl
        exact ⟨p, .left hp, hcaptured⟩
      · obtain ⟨p, hp, hcaptured⟩ := ihr hcs hr
        exact ⟨p, .right hp, hcaptured⟩
  | and l r ihl ihr =>
      rw [solve_and (hops_le_of_mem_finds h)] at h
      obtain ⟨a, ha, b, hb, rfl⟩ := exists_of_mem_finds_product h
      obtain ⟨p, hp, hpc⟩ := ihl hcs ha
      obtain ⟨q, hq, hqc⟩ := ihr hcs hb
      exact ⟨.and p q, .and hp hq, List.rel_append hpc hqc⟩
  | parent child ancestor ihc iha =>
      rw [solve_parent (hops_le_of_mem_finds h)] at h
      obtain ⟨c, hc, hs⟩ := Trail.mem_finds_each h
      obtain ⟨a, ha, b, hb, rfl⟩ := exists_of_mem_finds_product hs
      -- the child is searched at the candidate, the ancestor one parent link further
      have hone : ∀ d ∈ [c], d ∈ e.level hops := by
        intro d hd
        rw [List.mem_singleton.1 hd]
        exact hcs c hc
      have hparents : ∀ d ∈ c.parents, d ∈ e.level (hops + 1) :=
        fun d hd => Entry.mem_level_succ (hcs c hc) hd
      obtain ⟨p, hp, hpc⟩ := ihc hone ha
      obtain ⟨q, hq, hqc⟩ := iha hparents hb
      exact ⟨.parent p q, .parent hc hp hq, List.rel_append hpc hqc⟩
  | filter x field ih =>
      rw [solve_filter (hops_le_of_mem_finds h), Trail.finds_filter] at h
      obtain ⟨hs, hfield⟩ := List.mem_filter.1 h
      obtain ⟨p, hp, hcaptured⟩ := ih hcs hs
      exact ⟨.filter p field, .filter hp hfield, hcaptured⟩
  | capture name x ih =>
      rw [solve_capture (hops_le_of_mem_finds h), Trail.finds_map] at h
      obtain ⟨t, ht, rfl⟩ := List.mem_map.1 h
      obtain ⟨p, hp, hcaptured⟩ := ih hcs ht
      have hwitness : t.witness ∈ e.level hops := hcs _ hp.mem
      exact ⟨.capture name p, .capture hp,
        List.rel_append hcaptured (.cons ⟨rfl, hwitness⟩ .nil)⟩
  | foreign t =>
      have hlimit := hops_le_of_mem_finds h
      rw [solve_foreign hlimit] at h
      cases h

/-! ### Solutions for one entry -/

theorem CapturedAt.names_eq {e : Entry} {captured : List (String × Entry)}
    {levels : List (String × Nat)} (h : CapturedAt e captured levels) :
    captured.map Prod.fst = levels.map Prod.fst := by
  induction h with
  | nil => rfl
  | cons hc _ ih => rw [List.map_cons, List.map_cons, hc.1, ih]

/-- Each solution is reported once, in order, with the bindings of what it has captured. -/
theorem reported_in_order (x : Expr) (e : Entry) :
    List.Forall₂ (fun s r => r.1 = s.witness ∧ r.2.Holds s.captured) (solutions x e).finds
      (reports x e).finds := by
  rw [reports, Trail.finds_map, List.forall₂_map_right_iff, List.forall₂_same]
  exact fun s _ => ⟨rfl, Bindings.holds_ofPairs s.captured⟩

/-- The bindings that a match gives are those of the first solution. -/
theorem exists_of_apply_eq_ok {x : Expr} {e : Entry} {b : Bindings}
    (h : apply x e = .ok (some b)) :
    ∃ s others, (solutions x e).finds = s :: others ∧ b.Holds s.captured := by
  unfold apply at h
  cases hfirst : (solutions x e).first with
  | error f =>
      rw [hfirst] at h
      cases h
  | ok found =>
      rw [hfirst] at h
      cases found with
      | none => cases h
      | some s =>
          cases h
          obtain ⟨others, hothers⟩ := Trail.first_eq_some_iff.1 hfirst
          exact ⟨s, others, hothers, Bindings.holds_ofPairs s.captured⟩

/-- **A solution has captured what its route says.**  The witness is the entry itself; the names are
those of what is left of the expression along a successful route, in the order in which the captures
are completed; and each of them is bound to an entry as many parent links away as there are right
sides of `>` around its capture.  What is reported of the solutions, in their order, are their
witnesses and the bindings of what they have captured: every name once, in the order of the first
captures, and under it what was captured last.  The bindings that a match gives are those of the
first solution. -/
theorem solutions_captured_along_route (x : Expr) (e : Entry) :
    (∀ s ∈ (solutions x e).finds, s.witness = e ∧ ∃ p, Route 0 x [e] p e ∧
      s.captured.map Prod.fst = (p.captureLevels 0).map Prod.fst ∧
      List.Forall₂ (fun c l => c.2 ∈ e.level l.2) s.captured (p.captureLevels 0)) ∧
    List.Forall₂ (fun s r => r.1 = s.witness ∧ r.2.Holds s.captured) (solutions x e).finds
      (reports x e).finds ∧
    ∀ b, apply x e = .ok (some b) →
      ∃ s others, (solutions x e).finds = s :: others ∧ b.Holds s.captured := by
  refine ⟨fun s hs => ?_, reported_in_order x e, fun b hb => exists_of_apply_eq_ok hb⟩
  have hone : ∀ c ∈ [e], c ∈ e.level 0 := fun c hc => hc
  obtain ⟨p, hp, hcaptured⟩ := exists_route hone hs
  have hwitness : s.witness = e := List.mem_singleton.1 hp.mem
  rw [hwitness] at hp
  exact ⟨hwitness, p, hp, hcaptured.names_eq, hcaptured.imp fun _ _ h => h.2⟩

/-- Of an alternative among the parents only the side that succeeds is captured, one parent link
away, and of two captures under one name the later one is bound. -/
theorem solutions_captured_of_alternative :
    let book : Entry := ⟨[1], "b", .book, [], []⟩
    let article : Entry := ⟨[0], "a", .article, [], [book]⟩
    let x : Expr := .parent (.capture "work" (.capture "found" .any))
      (.or (.capture "series" (.type .periodical)) (.capture "found" (.type .book)))
    (solutions x article).finds =
        [⟨article, [("found", article), ("work", article), ("found", book)]⟩] ∧
      (∃ p, Route 0 x [article] p article ∧
        ["found", "work", "found"] = (p.captureLevels 0).map Prod.fst) ∧
      ∃ b, apply x article = .ok (some b) ∧ b.names = ["found", "work"] ∧
        b.get? "found" = some book := by
  intro book article x
  have hfinds : (solutions x article).finds = meaning x [article] :=
    (view_solve rfl [article] 0 (by decide)).1
  have hmeaning : meaning x [article] =
      [⟨article, [("found", article), ("work", article), ("found", book)]⟩] := rfl
  rw [hmeaning] at hfinds
  obtain ⟨hroute, -, hbound⟩ := solutions_captured_along_route x article
  obtain ⟨-, p, hp, hnames, -⟩ := hroute _ (hfinds ▸ List.mem_singleton.2 rfl)
  have happly : apply x article = .ok (some (.ofPairs
      [("found", article), ("work", article), ("found", book)])) := by
    rw [apply, Trail.first_eq_some_iff.2 ⟨[], hfinds⟩]
    rfl
  obtain ⟨s, others, hs, hholds⟩ := hbound _ happly
  rw [hfinds] at hs
  cases hs
  exact ⟨hfinds, ⟨p, hp, hnames⟩, _, happly, hholds.names_eq, hholds.get?_eq "found"⟩

end Search

end Bibliograph
