import Bibliograph.Entry.Basic
import Mathlib.Data.Nat.Find

/-!
# Levels of ancestors

The `n`-th level of an entry are the ends of all paths of `n` parent links, in the order of
declaration; an entry that several paths lead to is there once for each of them.  Nothing is left
out because it was met before.

An entry stands for a graph: two entries with the same identity are one and the same work, which
may then be reached along many paths.

Main definitions:

* `Entry.level`: the ends of the paths of a length;
* `Entry.levels`: the levels of ancestors up to one, one after another;
* `Entry.Coherent`: an identity stands for one entry;
* `Entry.IsAt`: the length of the shortest path to an entry.

Main results:

* `Entry.sizeOf_of_mem_level`: no path leads back, and every path ends;
* `Entry.exists_isAt`: what can be reached has a distance;
* `Entry.mem_levels_iff_isAt`: the ancestors up to a level are those at a distance up to it.
-/

set_option autoImplicit false

namespace Bibliograph.Entry

/-- The ends of the paths of `n` parent links, in declared order. -/
def level : Nat → Entry → List Entry
  | 0, e => [e]
  | n + 1, e => (level n e).flatMap Entry.parents

/-- The levels of the ancestors up to the `n`-th, one after another. -/
def levels (n : Nat) (e : Entry) : List Entry :=
  (List.range' 1 n).flatMap fun k => e.level k

/-- Of the entry and of all that its paths lead to, those with the same identity are the same. -/
def Coherent (e : Entry) : Prop :=
  ∀ m n : Nat, ∀ d ∈ e.level m, ∀ d' ∈ e.level n, d.id = d'.id → d = d'

/-- The shortest path from the entry to `d` has `n` parent links. -/
def IsAt (e : Entry) (n : Nat) (d : Entry) : Prop :=
  d ∈ e.level n ∧ ∀ m < n, d ∉ e.level m

/-! ### Levels -/

@[simp] theorem level_zero (e : Entry) : e.level 0 = [e] := rfl

theorem level_succ (n : Nat) (e : Entry) :
    e.level (n + 1) = (e.level n).flatMap Entry.parents := rfl

@[simp] theorem level_one (e : Entry) : e.level 1 = e.parents := by
  simp [level]

theorem mem_level_succ {n : Nat} {e d p : Entry} (hd : d ∈ e.level n) (hp : p ∈ d.parents) :
    p ∈ e.level (n + 1) :=
  List.mem_flatMap.2 ⟨d, hd, hp⟩

/-- A path may as well be taken apart behind its first link. -/
theorem level_succ_eq_flatMap_parents (n : Nat) (e : Entry) :
    e.level (n + 1) = e.parents.flatMap (level n) := by
  induction n with
  | zero => simp [level]
  | succ n ih =>
      rw [level_succ, ih, List.flatMap_assoc]
      rfl

/-- Behind an empty level there are only empty ones. -/
theorem level_eq_nil_of_le {m n : Nat} {e : Entry} (h : e.level m = []) (hmn : m ≤ n) :
    e.level n = [] := by
  induction n, hmn using Nat.le_induction with
  | base => exact h
  | succ n _ ih =>
      rw [level_succ, ih]
      rfl

theorem level_succ_ne_nil_iff {n : Nat} {e : Entry} :
    e.level (n + 1) ≠ [] ↔ ∃ p ∈ e.parents, p.level n ≠ [] := by
  rw [level_succ_eq_flatMap_parents, ne_eq, List.flatMap_eq_nil_iff]
  push Not
  rfl

/-- No path leaves a collection that the parent links do not leave. -/
theorem mem_of_mem_level_of_closed {e : Entry} {ds : List Entry} (he : e ∈ ds)
    (hclosed : ∀ d ∈ ds, ∀ p ∈ d.parents, p ∈ ds) {n : Nat} {d : Entry} (hd : d ∈ e.level n) :
    d ∈ ds := by
  induction n generalizing d with
  | zero => rwa [List.mem_singleton.1 hd]
  | succ n ih =>
      obtain ⟨c, hc, hp⟩ := List.mem_flatMap.1 hd
      exact hclosed c (ih hc) d hp

@[simp] theorem levels_zero (e : Entry) : e.levels 0 = [] := rfl

theorem levels_succ (n : Nat) (e : Entry) : e.levels (n + 1) = e.levels n ++ e.level (n + 1) := by
  simp [levels, List.range'_concat, Nat.add_comm]

/-- The levels up to one begin with those up to an earlier one. -/
theorem exists_levels_eq_append {m n : Nat} (h : m ≤ n) (e : Entry) :
    ∃ more, e.levels n = e.levels m ++ more := by
  induction n, h using Nat.le_induction with
  | base => exact ⟨[], (List.append_nil _).symm⟩
  | succ n _ ih =>
      obtain ⟨more, ih⟩ := ih
      refine ⟨more ++ e.level (n + 1), ?_⟩
      rw [levels_succ, ih, List.append_assoc]

theorem mem_levels_iff {n : Nat} {e d : Entry} :
    d ∈ e.levels n ↔ ∃ m, 1 ≤ m ∧ m ≤ n ∧ d ∈ e.level m := by
  simp only [levels, List.mem_flatMap, List.mem_range'_1]
  constructor
  · rintro ⟨m, ⟨hlow, hhigh⟩, hd⟩
    exact ⟨m, hlow, by omega, hd⟩
  · rintro ⟨m, hlow, hhigh, hd⟩
    exact ⟨m, ⟨hlow, by omega⟩, hd⟩

/-! ### Paths end -/

theorem sizeOf_of_mem_parents {e p : Entry} (h : p ∈ e.parents) : sizeOf p < sizeOf e := by
  have hlist : sizeOf p < sizeOf e.parents := List.sizeOf_lt_of_mem h
  have hentry : sizeOf e.parents < sizeOf e := by
    cases e
    simp only [Entry.mk.sizeOf_spec]
    omega
  exact Nat.lt_trans hlist hentry

/-- Every parent link leads to something smaller. -/
theorem sizeOf_of_mem_level {n : Nat} {e d : Entry} (h : d ∈ e.level n) :
    sizeOf d + n ≤ sizeOf e := by
  induction n generalizing d with
  | zero =>
      rw [level_zero, List.mem_singleton] at h
      rw [h]
      exact Nat.le_refl _
  | succ n ih =>
      obtain ⟨c, hc, hd⟩ := List.mem_flatMap.1 h
      have hstep : sizeOf d < sizeOf c := sizeOf_of_mem_parents hd
      have hrest : sizeOf c + n ≤ sizeOf e := ih hc
      omega

/-- No entry is its own ancestor. -/
theorem not_mem_level_self {n : Nat} (hn : 1 ≤ n) (e : Entry) : e ∉ e.level n := by
  intro h
  have := sizeOf_of_mem_level h
  omega

/-! ### Distances -/

theorem IsAt.mem {e d : Entry} {n : Nat} (h : e.IsAt n d) : d ∈ e.level n := h.1

/-- There is one distance to an entry. -/
theorem IsAt.unique {e d : Entry} {m n : Nat} (h : e.IsAt m d) (h' : e.IsAt n d) : m = n := by
  rcases Nat.lt_trichotomy m n with hlt | heq | hlt
  · exact absurd h.mem (h'.2 m hlt)
  · exact heq
  · exact absurd h'.mem (h.2 n hlt)

/-- What can be reached has a distance. -/
theorem exists_isAt {e d : Entry} {n : Nat} (h : d ∈ e.level n) : ∃ m ≤ n, e.IsAt m d := by
  classical
  have hex : ∃ m, d ∈ e.level m := ⟨n, h⟩
  exact ⟨Nat.find hex, Nat.find_min' hex h, Nat.find_spec hex, fun m hm => Nat.find_min hex hm⟩

/-- Of what a path leads to, only the entry itself is at the distance zero. -/
theorem IsAt.pos {e d : Entry} {m n : Nat} (h : e.IsAt m d) (hn : 1 ≤ n) (hd : d ∈ e.level n) :
    1 ≤ m := by
  rcases Nat.eq_zero_or_pos m with rfl | hm
  · obtain rfl : d = e := List.mem_singleton.1 h.mem
    exact absurd hd (not_mem_level_self hn d)
  · exact hm

/-- The ancestors up to a level are those at a distance up to it. -/
theorem mem_levels_iff_isAt {n : Nat} {e d : Entry} :
    d ∈ e.levels n ↔ ∃ m, 1 ≤ m ∧ m ≤ n ∧ e.IsAt m d := by
  rw [mem_levels_iff]
  constructor
  · rintro ⟨k, hlow, hhigh, hd⟩
    obtain ⟨m, hm, hat⟩ := exists_isAt hd
    exact ⟨m, hat.pos hlow hd, Nat.le_trans hm hhigh, hat⟩
  · rintro ⟨m, hlow, hhigh, hat⟩
    exact ⟨m, hlow, hhigh, hat.mem⟩

/-! ### Coherence -/

/-- Among the ancestors of a coherent entry an identity decides. -/
theorem Coherent.eq_of_mem_levels {e d d' : Entry} (he : e.Coherent) {m n : Nat}
    (hd : d ∈ e.level m) (hd' : d' ∈ e.levels n) (h : d.id = d'.id) : d = d' := by
  obtain ⟨k, -, -, hk⟩ := mem_levels_iff.1 hd'
  exact he m k d hd d' hk h

/-- Distinct identities in a collection that the parent links do not leave make a graph coherent. -/
theorem Coherent.of_closed {e : Entry} {ds : List Entry} (he : e ∈ ds)
    (hclosed : ∀ d ∈ ds, ∀ p ∈ d.parents, p ∈ ds)
    (hids : ∀ d ∈ ds, ∀ d' ∈ ds, d.id = d'.id → d = d') : e.Coherent := by
  intro m n d hd d' hd' hid
  exact hids d (mem_of_mem_level_of_closed he hclosed hd) d'
    (mem_of_mem_level_of_closed he hclosed hd') hid

/-- A first visit of a level is a visit at the shortest distance. -/
theorem Coherent.isAt_succ_iff {e d : Entry} (he : e.Coherent) {n : Nat} :
    e.IsAt (n + 1) d ↔ d ∈ e.level (n + 1) ∧ ∀ d' ∈ e.levels n, d'.id ≠ d.id := by
  constructor
  · intro h
    refine ⟨h.mem, fun d' hd' hid => ?_⟩
    obtain rfl : d = d' := he.eq_of_mem_levels h.mem hd' hid.symm
    obtain ⟨m, -, hm, hmem⟩ := mem_levels_iff.1 hd'
    exact h.2 m (Nat.lt_succ_of_le hm) hmem
  · rintro ⟨hd, hnew⟩
    refine ⟨hd, fun m hm hmem => ?_⟩
    rcases Nat.eq_zero_or_pos m with rfl | hpos
    · obtain rfl : d = e := List.mem_singleton.1 hmem
      exact not_mem_level_self (Nat.le_add_left 1 n) d hd
    · exact hnew d (mem_levels_iff.2 ⟨m, hpos, Nat.le_of_lt_succ hm, hmem⟩) rfl

end Bibliograph.Entry
