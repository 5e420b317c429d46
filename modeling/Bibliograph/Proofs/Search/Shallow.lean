import Bibliograph.Proofs.Search.Ancestor

/-!
# Searches in shallow graphs

A search counts the parent links that its expression follows, and it looks at the limit before it
looks at the candidates.  So it is not the number of links alone that decides: at the end of a path
of a hundred links there are no parents any more, and still an expression that goes on runs into the
limit there.  On an entry from which there is no path of a hundred links no expression does.

Main definitions:

* `Selector.Expr.ladder`: the expression that follows a number of parent links;
* `Entry.chain`: an entry with one path of a number of parent links.

Main results:

* `Search.ending_of_no_path`: where no path reaches the limit no search fails;
* `Search.ending_ladder`: a ladder of one link more than the limit fails on every entry with a path
  that reaches it;
* `Search.never_tooFar_iff`: **no expression runs into the limit exactly if no path has a hundred
  links**;
* `Search.tooFar_on_hundred_links`: a graph with no more than a hundred links in a path, and a
  search that fails on it.
-/

set_option autoImplicit false

namespace Bibliograph

/-- Follows `n` parent links, whatever the entries are: `* > * > ⋯ > *`. -/
def Selector.Expr.ladder : Nat → Selector.Expr
  | 0 => .any
  | n + 1 => .parent .any (ladder n)

/-- An entry from which there is one path, of `n` parent links. -/
def Entry.chain : Nat → Entry
  | 0 => ⟨[0], "0", .misc, [], []⟩
  | n + 1 => ⟨[n + 1], Number.decimal (n + 1), .misc, [], [chain n]⟩

/-! ### One path -/

namespace Entry

theorem level_chain_add (m n : Nat) : (chain (n + m)).level m = [chain n] := by
  induction m with
  | zero => rfl
  | succ m ih =>
      rw [level_succ_eq_flatMap_parents]
      change [chain (n + m)].flatMap (level m) = _
      rw [List.flatMap_singleton, ih]

/-- A chain has no path of more links. -/
theorem level_chain_eq_nil {m n : Nat} (h : n < m) : (chain n).level m = [] := by
  have hend : (chain n).level n = [chain 0] := by
    have hadd := level_chain_add n 0
    rwa [Nat.zero_add] at hadd
  refine level_eq_nil_of_le ?_ h
  rw [level_succ, hend]
  rfl

end Entry

namespace Search

open Selector

/-! ### No path as long as the limit -/

/-- **Where no path reaches the limit no search fails.**  The candidates are `hops` parent links
away from `e`, as they are throughout a search. -/
theorem ending_of_no_path {e : Entry} (he : e.level maxGenerations = []) {x : Expr}
    (hx : x.isNative = true) {cs : List Entry} {hops : Nat} (hlimit : hops ≤ maxGenerations)
    (hcs : ∀ c ∈ cs, c ∈ e.level hops) : (solve x cs hops).ending = none := by
  induction x generalizing cs hops with
  | type t => rw [solve_type hlimit, Trail.ending_ofList]
  | any => rw [solve_any hlimit, Trail.ending_ofList]
  | foreign s => cases hx
  | filter x field ih =>
      rw [solve_filter hlimit, Trail.ending_filter]
      exact ih hx hlimit hcs
  | capture name x ih =>
      rw [solve_capture hlimit, Trail.ending_map]
      exact ih hx hlimit hcs
  | not x ih =>
      rw [solve_not hlimit]
      refine Trail.ending_each fun c hc => (view_refusal c ?_).2
      exact ih hx hlimit (List.forall_mem_singleton.2 (hcs c hc))
  | or l r ihl ihr =>
      rw [Expr.isNative, Bool.and_eq_true] at hx
      rw [solve_or hlimit, Trail.ending_append, ihl hx.1 hlimit hcs, ihr hx.2 hlimit hcs]
      rfl
  | and l r ihl ihr =>
      rw [Expr.isNative, Bool.and_eq_true] at hx
      rw [solve_and hlimit, ending_product, Replay.ending_ofTrail, ihl hx.1 hlimit hcs,
        ihr hx.2 hlimit hcs]
      simp
  | parent child ancestor ihc iha =>
      rw [Expr.isNative, Bool.and_eq_true] at hx
      rw [solve_parent hlimit]
      refine Trail.ending_each fun c hc => ?_
      -- there is a candidate, so its parents are within the limit
      have hne : hops ≠ maxGenerations := by
        rintro rfl
        have hmem := hcs c hc
        rw [he] at hmem
        cases hmem
      have hnext : hops + 1 ≤ maxGenerations := by omega
      have hchild := ihc hx.1 hlimit (List.forall_mem_singleton.2 (hcs c hc))
      have hancestor := iha hx.2 hnext fun p hp => Entry.mem_level_succ (hcs c hc) hp
      rw [ending_product, Replay.ending_ofTrail, hchild, hancestor]
      simp

/-! ### A path as long as the limit -/

theorem isNative_ladder (n : Nat) : (Expr.ladder n).isNative = true := by
  induction n with
  | zero => rfl
  | succ n ih =>
      rw [Expr.ladder, Expr.isNative, ih]
      rfl

/-- A ladder that leads beyond the limit finds nothing. -/
theorem finds_ladder {n hops : Nat} (h : hops + n = maxGenerations + 1) (cs : List Entry) :
    (solve (.ladder n) cs hops).finds = [] := by
  induction n generalizing hops cs with
  | zero =>
      rw [solve_tooFar (by omega)]
      rfl
  | succ n ih =>
      have hlimit : hops ≤ maxGenerations := by omega
      rw [Expr.ladder, solve_parent hlimit, List.eq_nil_iff_forall_not_mem]
      intro s hs
      obtain ⟨c, -, hs⟩ := Trail.mem_finds_each hs
      obtain ⟨-, -, b, hb, -⟩ := exists_of_mem_finds_product hs
      rw [ih (by omega)] at hb
      cases hb

/-- **A ladder that leads beyond the limit fails** if there is a path to the limit, even if the path
ends there. -/
theorem ending_ladder {n hops : Nat} (h : hops + n = maxGenerations) {cs : List Entry} {c : Entry}
    (hc : c ∈ cs) (hpath : c.level n ≠ []) :
    (solve (.ladder (n + 1)) cs hops).ending ≠ none := by
  induction n generalizing hops cs c with
  | zero =>
      have hlimit : hops ≤ maxGenerations := by omega
      rw [Expr.ladder, solve_parent hlimit, ne_eq, Trail.ending_each_eq_none_iff]
      intro hnone
      have hround := hnone c hc
      -- the limit is looked at before the parents, of which there may be none
      rw [solve_any hlimit, ending_product, Replay.ending_ofTrail, solve_tooFar (by omega)]
        at hround
      simp at hround
  | succ n ih =>
      have hlimit : hops ≤ maxGenerations := by omega
      obtain ⟨p, hp, hpath⟩ := Entry.level_succ_ne_nil_iff.1 hpath
      rw [Expr.ladder, solve_parent hlimit, ne_eq, Trail.ending_each_eq_none_iff]
      intro hnone
      have hround := hnone c hc
      have hhops : hops + 1 + n = maxGenerations := by omega
      have hnext := ih hhops hp hpath
      rw [solve_any hlimit, ending_product, Replay.ending_ofTrail] at hround
      simp [hnext] at hround

/-- The verdict on the ladder is the failure itself, as nothing is found before it. -/
theorem isMatch_ladder {e : Entry} (he : e.level maxGenerations ≠ []) :
    isMatch (.ladder (maxGenerations + 1)) e = .error .tooFar := by
  have hending := ending_ladder (Nat.zero_add _) (List.mem_singleton_self e) he
  obtain ⟨f, hf⟩ := Option.ne_none_iff_exists'.1 hending
  have htoo := ending_of_isNative (isNative_ladder _) [e] 0 f hf
  have hfinds := finds_ladder (Nat.zero_add (maxGenerations + 1)) [e]
  rw [isMatch_eq_verdict]
  generalize solve (.ladder (maxGenerations + 1)) [e] 0 = t at hf hfinds
  cases t with
  | done => cases hf
  | failed d =>
      cases hf
      rw [htoo]
      rfl
  | found s rest => cases hfinds

/-! ### The limit and the paths -/

/-- A search that does not fail has a first solution or none. -/
theorem exists_apply_of_ending {x : Expr} {e : Entry} (h : (solutions x e).ending = none) :
    ∃ b, apply x e = .ok b := by
  unfold apply
  revert h
  cases solutions x e with
  | done => exact fun _ => ⟨none, rfl⟩
  | failed f =>
      intro h
      cases h
  | found s rest => exact fun _ => ⟨some (.ofPairs s.captured), rfl⟩

theorem exists_isMatch_of_apply {x : Expr} {e : Entry} (h : ∃ b, apply x e = .ok b) :
    ∃ m, isMatch x e = .ok m := by
  obtain ⟨b, hb⟩ := h
  exact ⟨b.isSome, by rw [isMatch, hb]; rfl⟩

/-- If there is a verdict on every expression, then there is one on the ladder. -/
theorem no_path_of_isMatch {e : Entry}
    (h : ∀ x : Expr, x.isNative = true → ∃ m, isMatch x e = .ok m) :
    e.level maxGenerations = [] := by
  by_contra he
  obtain ⟨m, hm⟩ := h _ (isNative_ladder (maxGenerations + 1))
  rw [isMatch_ladder he] at hm
  cases hm

/-- **No expression runs into the limit exactly if no path has a hundred links.**  It does not
matter whether all solutions are asked for, the first one, or only whether the entry matches.  A path of
more than a hundred links is not needed. -/
theorem never_tooFar_iff (e : Entry) :
    ((∀ x : Expr, x.isNative = true → (solutions x e).ending = none) ↔
      e.level maxGenerations = []) ∧
    ((∀ x : Expr, x.isNative = true → ∃ b, apply x e = .ok b) ↔
      e.level maxGenerations = []) ∧
    ((∀ x : Expr, x.isNative = true → ∃ m, isMatch x e = .ok m) ↔
      e.level maxGenerations = []) := by
  have hsolutions : e.level maxGenerations = [] →
      ∀ x : Expr, x.isNative = true → (solutions x e).ending = none := by
    intro he x hx
    have hone : ∀ c ∈ [e], c ∈ e.level 0 := fun c hc => hc
    exact ending_of_no_path he hx (Nat.zero_le _) hone
  refine ⟨⟨fun h => ?_, hsolutions⟩, ⟨fun h => ?_, fun he x hx => ?_⟩,
    ⟨no_path_of_isMatch, fun he x hx => ?_⟩⟩
  · exact no_path_of_isMatch fun x hx => exists_isMatch_of_apply (exists_apply_of_ending (h x hx))
  · exact no_path_of_isMatch fun x hx => exists_isMatch_of_apply (h x hx)
  · exact exists_apply_of_ending (hsolutions he x hx)
  · exact exists_isMatch_of_apply (exists_apply_of_ending (hsolutions he x hx))

/-- The chain of a hundred links has no path of more, and the ladder of one link more fails on
it. -/
theorem tooFar_on_hundred_links :
    (∀ n, maxGenerations < n → (Entry.chain maxGenerations).level n = []) ∧
      (Expr.ladder (maxGenerations + 1)).isNative = true ∧
      isMatch (.ladder (maxGenerations + 1)) (.chain maxGenerations) = .error .tooFar := by
  have hpath : (Entry.chain maxGenerations).level maxGenerations ≠ [] := by
    have hend := Entry.level_chain_add maxGenerations 0
    rw [Nat.zero_add] at hend
    rw [hend]
    exact List.cons_ne_nil _ _
  exact ⟨fun n hn => Entry.level_chain_eq_nil hn, isNative_ladder _, isMatch_ladder hpath⟩

end Search

end Bibliograph
