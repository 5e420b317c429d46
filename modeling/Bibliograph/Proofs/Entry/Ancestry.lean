import Bibliograph.Entry.Ancestry
import Bibliograph.Proofs.Entry.Level

/-!
# The ancestors in the order of the levels

Ancestors are visited generation by generation, and an entry that was visited is not visited again:
neither it nor its parents are looked at a second time.  Compared with the levels, in which all
paths are followed, nothing is lost and nothing changes its place.  What is passed over was visited
before, so its parents were met before, in the same generation or in an earlier one.

Main definitions:

* `Entry.place`: where an entry occurs first in the levels;
* `Entry.Visited`: the invariant of the visit.

Main results:

* `Entry.fresh_flatMap_parents`: passing over what was seen changes no first occurrence among the
  parents;
* `Entry.Visited.next`: visiting a generation keeps the invariant;
* `Entry.Visited.finds_generations`, `Entry.Visited.ending_generations`: what a visit finds and how
  it ends, by induction on the generations;
* `Entry.ancestors_levels`: **the ancestors are the entries at a distance of one to a hundred parent
  links**, each one once and in the order of its first occurrence in the levels.
-/

set_option autoImplicit false

namespace Bibliograph.Entry

/-! ### First occurrences -/

/-- Only which identities were seen matters, not their order. -/
theorem fresh_congr {seen seen' : List Identity} (h : ∀ i, i ∈ seen ↔ i ∈ seen')
    (es : List Entry) : fresh seen es = fresh seen' es := by
  induction es generalizing seen seen' with
  | nil => rfl
  | cons e es ih =>
      have hmore : ∀ i, i ∈ e.id :: seen ↔ i ∈ e.id :: seen' := by
        intro i
        rw [List.mem_cons, List.mem_cons, h]
      by_cases he : e.id ∈ seen
      · rw [fresh, fresh, if_pos he, if_pos ((h _).1 he), ih h]
      · rw [fresh, fresh, if_neg he, if_neg fun he' => he ((h _).2 he'), ih hmore]

/-- In a sequence that goes on with another one, all of the first part was seen. -/
theorem fresh_append (seen : List Identity) (as bs : List Entry) :
    fresh seen (as ++ bs) = fresh seen as ++ fresh (as.map Entry.id ++ seen) bs := by
  induction as generalizing seen with
  | nil => rfl
  | cons a as ih =>
      by_cases ha : a.id ∈ seen
      · have hsame : ∀ i, i ∈ as.map Entry.id ++ seen ↔ i ∈ (a :: as).map Entry.id ++ seen := by
          intro i
          simp only [List.map_cons, List.cons_append, List.mem_cons, List.mem_append]
          grind
        rw [List.cons_append, fresh, if_pos ha, fresh, if_pos ha, ih, fresh_congr hsame]
      · have hsame : ∀ i, i ∈ as.map Entry.id ++ a.id :: seen ↔
            i ∈ (a :: as).map Entry.id ++ seen := by
          intro i
          simp only [List.map_cons, List.cons_append, List.mem_cons, List.mem_append]
          grind
        rw [List.cons_append, fresh, if_neg ha, fresh, if_neg ha, ih, fresh_congr hsame,
          List.cons_append]

theorem fresh_eq_nil {seen : List Identity} {es : List Entry} (h : ∀ e ∈ es, e.id ∈ seen) :
    fresh seen es = [] := by
  induction es with
  | nil => rfl
  | cons e es ih =>
      have hes : ∀ d ∈ es, d.id ∈ seen := fun d hd => h d (List.mem_cons_of_mem _ hd)
      rw [fresh, if_pos (h e (List.mem_cons_self ..)), ih hes]

theorem mem_of_mem_fresh {seen : List Identity} {es : List Entry} {d : Entry}
    (h : d ∈ fresh seen es) : d ∈ es := by
  induction es generalizing seen with
  | nil => simp [fresh] at h
  | cons e es ih =>
      by_cases he : e.id ∈ seen
      · rw [fresh, if_pos he] at h
        exact List.mem_cons_of_mem _ (ih h)
      · rw [fresh, if_neg he] at h
        rcases List.mem_cons.1 h with rfl | h
        · exact List.mem_cons_self ..
        · exact List.mem_cons_of_mem _ (ih h)

/-- Every identity that was not seen occurs a first time. -/
theorem exists_mem_fresh {seen : List Identity} {es : List Entry} {d : Entry} (hd : d ∈ es)
    (hnew : d.id ∉ seen) : ∃ d' ∈ fresh seen es, d'.id = d.id := by
  induction es generalizing seen with
  | nil => simp at hd
  | cons e es ih =>
      by_cases he : e.id ∈ seen
      · rw [fresh, if_pos he]
        rcases List.mem_cons.1 hd with rfl | hd
        · exact absurd he hnew
        · exact ih hd hnew
      · rw [fresh, if_neg he]
        by_cases hsame : d.id = e.id
        · exact ⟨e, List.mem_cons_self .., hsame.symm⟩
        · have hd' : d ∈ es := by
            rcases List.mem_cons.1 hd with rfl | hd
            · exact absurd rfl hsame
            · exact hd
          have hnew' : d.id ∉ e.id :: seen := by simp [hsame, hnew]
          obtain ⟨d', hmem, hid⟩ := ih hd' hnew'
          exact ⟨d', List.mem_cons_of_mem _ hmem, hid⟩

/-- Where an identity decides, the first occurrences are the entries that were not seen. -/
theorem mem_fresh_iff {seen : List Identity} {es : List Entry} {d : Entry}
    (hsame : ∀ d' ∈ es, d'.id = d.id → d' = d) : d ∈ fresh seen es ↔ d ∈ es ∧ d.id ∉ seen := by
  constructor
  · intro h
    exact ⟨mem_of_mem_fresh h, id_not_mem_of_mem_fresh h⟩
  · rintro ⟨hd, hnew⟩
    obtain ⟨d', hmem, hid⟩ := exists_mem_fresh hd hnew
    rwa [← hsame d' (mem_of_mem_fresh hmem) hid]

theorem map_id_fresh (seen : List Identity) (es : List Entry) (i : Identity) :
    i ∈ (fresh seen es).map Entry.id ++ seen ↔ i ∈ es.map Entry.id ++ seen := by
  simp only [List.mem_append, List.mem_map]
  constructor
  · rintro (⟨d, hd, rfl⟩ | h)
    · exact Or.inl ⟨d, mem_of_mem_fresh hd, rfl⟩
    · exact Or.inr h
  · rintro (⟨d, hd, rfl⟩ | h)
    · by_cases hseen : d.id ∈ seen
      · exact Or.inr hseen
      · exact Or.inl (exists_mem_fresh hd hseen)
    · exact Or.inr h

/-- **Passing over what was seen changes no first occurrence among the parents**, once the parents
of all that was seen were seen too. -/
theorem fresh_flatMap_parents {seen seen' : List Identity} {es : List Entry}
    (hclosed : ∀ d ∈ es, d.id ∈ seen → ∀ p ∈ d.parents, p.id ∈ seen')
    (hsame : ∀ d ∈ es, ∀ d' ∈ es, d.id = d'.id → d = d') :
    fresh seen' ((fresh seen es).flatMap Entry.parents) =
      fresh seen' (es.flatMap Entry.parents) := by
  -- an entry adds itself to what was seen, and its parents to what was seen of the next generation
  induction es generalizing seen seen' with
  | nil => rfl
  | cons e es ih =>
      have hsame' : ∀ d ∈ es, ∀ d' ∈ es, d.id = d'.id → d = d' := fun d hd d' hd' =>
        hsame d (List.mem_cons_of_mem _ hd) d' (List.mem_cons_of_mem _ hd')
      by_cases he : e.id ∈ seen
      · have hparents : ∀ p ∈ e.parents, p.id ∈ seen' := hclosed e (List.mem_cons_self ..) he
        have hseen : ∀ i, i ∈ seen' ↔ i ∈ e.parents.map Entry.id ++ seen' := by
          intro i
          simp only [List.mem_append, List.mem_map]
          grind
        rw [fresh, if_pos he, ih (fun d hd => hclosed d (List.mem_cons_of_mem _ hd)) hsame',
          List.flatMap_cons, fresh_append, fresh_eq_nil hparents, List.nil_append,
          fresh_congr hseen]
      · have hclosed' : ∀ d ∈ es, d.id ∈ e.id :: seen →
            ∀ p ∈ d.parents, p.id ∈ e.parents.map Entry.id ++ seen' := by
          intro d hd hseen p hp
          rcases List.mem_cons.1 hseen with hid | hseen
          · obtain rfl : d = e := hsame d (List.mem_cons_of_mem _ hd) e (List.mem_cons_self ..) hid
            exact List.mem_append_left _ (List.mem_map_of_mem hp)
          · exact List.mem_append_right _ (hclosed d (List.mem_cons_of_mem _ hd) hseen p hp)
        rw [fresh, if_neg he, List.flatMap_cons, fresh_append, ih hclosed' hsame',
          List.flatMap_cons, fresh_append]

/-- What is fresh behind an entry that was seen occurs first one place later. -/
theorem findIdx_cons_of_mem_fresh {seen : List Identity} {e d : Entry} {es : List Entry}
    (he : e.id ∈ seen) (hd : d ∈ fresh seen es) :
    ((e :: es).findIdx fun c => c.id = d.id) = (es.findIdx fun c => c.id = d.id) + 1 := by
  have hne : e.id ≠ d.id := fun h => id_not_mem_of_mem_fresh hd (h ▸ he)
  simp [List.findIdx_cons, hne]

/-- What is fresh comes in the order of the first occurrences. -/
theorem pairwise_fresh (seen : List Identity) (es : List Entry) :
    (fresh seen es).Pairwise fun d d' =>
      (es.findIdx fun c => c.id = d.id) < es.findIdx fun c => c.id = d'.id := by
  induction es generalizing seen with
  | nil => exact List.Pairwise.nil
  | cons e es ih =>
      have tail : ∀ {seen' : List Identity}, e.id ∈ seen' → (fresh seen' es).Pairwise fun d d' =>
          ((e :: es).findIdx fun c => c.id = d.id) < (e :: es).findIdx fun c => c.id = d'.id := by
        intro seen' he
        refine (ih seen').imp_of_mem fun hd hd' hlt => ?_
        rw [findIdx_cons_of_mem_fresh he hd, findIdx_cons_of_mem_fresh he hd']
        exact Nat.succ_lt_succ hlt
      by_cases he : e.id ∈ seen
      · rw [fresh, if_pos he]
        exact tail he
      · rw [fresh, if_neg he]
        refine List.Pairwise.cons (fun d hd => ?_) (tail (List.mem_cons_self ..))
        rw [findIdx_cons_of_mem_fresh (List.mem_cons_self ..) hd]
        simp [List.findIdx_cons]

/-! ### Places -/

/-- Where the entry occurs first in the levels up to the `n`-th. -/
def place (n : Nat) (e d : Entry) : Nat :=
  (e.levels n).findIdx fun c => c.id = d.id

/-- What occurs in the first levels has its place there. -/
theorem place_of_mem_levels {m n : Nat} {e d : Entry} (hmn : m ≤ n) (hd : d ∈ e.levels m) :
    e.place n d = e.place m d ∧ e.place m d < (e.levels m).length := by
  have hlt : e.place m d < (e.levels m).length :=
    List.findIdx_lt_length_of_exists ⟨d, hd, by simp⟩
  obtain ⟨more, hmore⟩ := exists_levels_eq_append hmn e
  refine ⟨?_, hlt⟩
  rw [place, hmore, List.findIdx_append]
  exact if_pos hlt

/-- What occurs in later levels only has its place behind the first ones. -/
theorem length_levels_le_place {m n : Nat} {e d : Entry} (hmn : m ≤ n)
    (hd : ∀ c ∈ e.levels m, c.id ≠ d.id) : (e.levels m).length ≤ e.place n d := by
  obtain ⟨more, hmore⟩ := exists_levels_eq_append hmn e
  have hnone : ¬ ((e.levels m).findIdx fun c => c.id = d.id) < (e.levels m).length := by
    rw [List.findIdx_lt_length]
    rintro ⟨c, hc, hid⟩
    exact hd c hc (of_decide_eq_true hid)
  rw [place, hmore, List.findIdx_append, if_neg hnone]
  exact Nat.le_add_left ..

/-- What occurs earlier in the levels is not farther away. -/
theorem Coherent.isAt_le_of_place_lt {e d d' : Entry} (he : e.Coherent) {k n n' : Nat}
    (hn : e.IsAt n d) (hn' : e.IsAt n' d') (hpos' : 1 ≤ n') (hk : n' ≤ k)
    (h : e.place k d < e.place k d') : n ≤ n' := by
  by_contra hlt
  have hmem' : d' ∈ e.levels n' := mem_levels_iff.2 ⟨n', hpos', Nat.le_refl _, hn'.mem⟩
  obtain ⟨hplace, hlength⟩ := place_of_mem_levels hk hmem'
  have hnone : ∀ c ∈ e.levels n', c.id ≠ d.id := by
    intro c hc hid
    obtain rfl : d = c := he.eq_of_mem_levels hn.mem hc hid.symm
    obtain ⟨m, -, hm, hmem⟩ := mem_levels_iff.1 hc
    exact hn.2 m (by omega) hmem
  have hbehind := length_levels_le_place hk hnone
  omega

/-! ### The visit -/

/-- The first `n` generations were visited: their identities were seen, and what is new in the next
generation is what is new in the next level. -/
structure Visited (e : Entry) (n : Nat) (seen : List Identity) (generation : List Entry) :
    Prop where
  seen_iff : ∀ i, i ∈ seen ↔ i ∈ (e.levels n).map Entry.id
  fresh_eq : fresh seen generation = fresh seen (e.level (n + 1))

theorem Visited.start (e : Entry) : e.Visited 0 [] e.parents where
  seen_iff i := by simp
  fresh_eq := by rw [level_one]

/-- A generation is visited, also an empty one, and then the next one. -/
theorem generations_succ (key : String) (n : Nat) (seen : List Identity) (es : List Entry) :
    generations key (n + 1) seen es = (Trail.ofList (fresh seen es)).append fun _ =>
      generations key n ((fresh seen es).map Entry.id ++ seen)
        ((fresh seen es).flatMap Entry.parents) := by
  cases es with
  | nil => cases n <;> rfl
  | cons e es => rfl

namespace Visited

variable {e : Entry} {n : Nat} {seen : List Identity} {generation : List Entry}

/-- What is new in a generation are the entries at its distance. -/
theorem mem_fresh_iff_isAt (h : e.Visited n seen generation) (he : e.Coherent) {d : Entry} :
    d ∈ fresh seen generation ↔ e.IsAt (n + 1) d := by
  have hsame : d ∈ e.level (n + 1) → ∀ d' ∈ e.level (n + 1), d'.id = d.id → d' = d :=
    fun hd d' hd' hid => he _ _ d' hd' d hd hid
  have hseen : d.id ∉ seen ↔ ∀ d' ∈ e.levels n, d'.id ≠ d.id := by
    rw [h.seen_iff, List.mem_map]
    simp
  rw [he.isAt_succ_iff, h.fresh_eq, ← hseen]
  constructor
  · intro hd
    exact (mem_fresh_iff (hsame (mem_of_mem_fresh hd))).1 hd
  · intro hd
    exact (mem_fresh_iff (hsame hd.1)).2 hd

/-- **Visiting a generation keeps the invariant.** -/
theorem next (h : e.Visited n seen generation) (he : e.Coherent) :
    e.Visited (n + 1) ((fresh seen generation).map Entry.id ++ seen)
      ((fresh seen generation).flatMap Entry.parents) where
  seen_iff i := by
    rw [h.fresh_eq, map_id_fresh, List.mem_append, h.seen_iff, levels_succ, List.map_append,
      List.mem_append]
    exact Or.comm
  fresh_eq := by
    -- what was seen before was met at a level, and its parents at the level after that
    have hclosed : ∀ d ∈ e.level (n + 1), d.id ∈ seen →
        ∀ p ∈ d.parents, p.id ∈ (fresh seen generation).map Entry.id ++ seen := by
      intro d hd hid p hp
      obtain ⟨d', hd', hsame⟩ := List.mem_map.1 ((h.seen_iff _).1 hid)
      obtain rfl : d = d' := he.eq_of_mem_levels hd hd' hsame.symm
      obtain ⟨m, -, hm, hmem⟩ := mem_levels_iff.1 hd'
      have hparent : p ∈ e.levels (n + 1) :=
        mem_levels_iff.2 ⟨m + 1, by omega, by omega, mem_level_succ hmem hp⟩
      rw [levels_succ, List.mem_append] at hparent
      rw [h.fresh_eq, map_id_fresh, List.mem_append, h.seen_iff]
      rcases hparent with hold | hnew
      · exact Or.inr (List.mem_map_of_mem hold)
      · exact Or.inl (List.mem_map_of_mem hnew)
    rw [level_succ (n + 1), ← fresh_flatMap_parents hclosed
      fun d hd d' hd' hid => he _ _ d hd d' hd' hid, h.fresh_eq]

/-- **What a visit finds** are the first occurrences in the levels that are still to come. -/
theorem finds_generations (h : e.Visited n seen generation) (he : e.Coherent) (key : String)
    (k : Nat) : (generations key k seen generation).finds =
      fresh seen ((List.range' (n + 1) k).flatMap fun m => e.level m) := by
  induction k generalizing n seen generation with
  | zero => cases generation <;> rfl
  | succ k ih =>
      have hseen := map_id_fresh seen (e.level (n + 1))
      rw [generations_succ, Trail.finds_append, Trail.ending_ofList, Trail.finds_ofList,
        ih (h.next he), List.range'_succ, List.flatMap_cons, fresh_append, h.fresh_eq,
        fresh_congr hseen]
      rfl

/-- **How a visit ends**: it fails exactly if an entry of the last generation has a parent. -/
theorem ending_generations (h : e.Visited n seen generation) (he : e.Coherent) (key : String)
    {k : Nat} (hk : 1 ≤ k) (f : NestingFault) :
    (generations key k seen generation).ending = some f ↔
      f = ⟨key⟩ ∧ ∃ d, e.IsAt (n + k) d ∧ d.parents ≠ [] := by
  induction k, hk using Nat.le_induction generalizing n seen generation with
  | base =>
      have hlast : (∃ d, e.IsAt (n + 1) d ∧ d.parents ≠ []) ↔
          (fresh seen generation).flatMap Entry.parents ≠ [] := by
        simp only [ne_eq, List.flatMap_eq_nil_iff, ← h.mem_fresh_iff_isAt he]
        push Not
        rfl
      rw [generations_succ, Trail.ending_append, Trail.ending_ofList, Option.none_or, hlast]
      cases (fresh seen generation).flatMap Entry.parents with
      | nil => simp [generations]
      | cons d ds => simp [generations, eq_comm]
  | succ k _ ih =>
      rw [generations_succ, Trail.ending_append, Trail.ending_ofList, Option.none_or,
        ih (h.next he), Nat.add_assoc, Nat.add_comm 1 k]

end Visited

/-! ### The ancestors -/

theorem Coherent.finds_ancestors {e : Entry} (he : e.Coherent) :
    e.ancestors.finds = fresh [] (e.levels maxGenerations) := by
  rw [ancestors, (Visited.start e).finds_generations he]
  rfl

/-- The ancestors that are found are those at a distance within the limit. -/
theorem Coherent.mem_finds_ancestors_iff {e d : Entry} (he : e.Coherent) :
    d ∈ e.ancestors.finds ↔ ∃ n, 1 ≤ n ∧ n ≤ maxGenerations ∧ e.IsAt n d := by
  rw [he.finds_ancestors, ← mem_levels_iff_isAt]
  constructor
  · exact mem_of_mem_fresh
  · intro hd
    refine (mem_fresh_iff fun d' hd' hid => ?_).2 ⟨hd, List.not_mem_nil⟩
    obtain ⟨m, -, -, hmem⟩ := mem_levels_iff.1 hd'
    exact he.eq_of_mem_levels hmem hd hid

/-- Ancestors are found in the order of their first occurrence, however far the levels go. -/
theorem Coherent.pairwise_place {e : Entry} (he : e.Coherent) {k : Nat}
    (hk : maxGenerations ≤ k) :
    e.ancestors.finds.Pairwise fun d d' => e.place k d < e.place k d' := by
  rw [he.finds_ancestors]
  refine (pairwise_fresh [] (e.levels maxGenerations)).imp_of_mem fun hd hd' hlt => ?_
  rw [(place_of_mem_levels hk (mem_of_mem_fresh hd)).1,
    (place_of_mem_levels hk (mem_of_mem_fresh hd')).1]
  exact hlt

/-- **The ancestors are the entries at a distance of one to a hundred parent links.**  Each of them
is found once, the nearer ones first, and in the order of its first occurrence in the levels, which
follow all paths.  Behind them the search ends, and it fails exactly if an entry at a distance of a
hundred has a parent. -/
theorem ancestors_levels {e : Entry} (he : e.Coherent) :
    (∀ d, d ∈ e.ancestors.finds ↔ ∃ n, 1 ≤ n ∧ n ≤ maxGenerations ∧ e.IsAt n d) ∧
    (e.ancestors.finds.map Entry.id).Nodup ∧
    (e.ancestors.finds.Pairwise fun d d' =>
      ∀ n n' : Nat, e.IsAt n d → e.IsAt n' d' → n ≤ n') ∧
    (∀ k, maxGenerations ≤ k →
      e.ancestors.finds.Pairwise fun d d' => e.place k d < e.place k d') ∧
    ∀ f, e.ancestors.ending = some f ↔
      f = ⟨e.key⟩ ∧ ∃ d, e.IsAt maxGenerations d ∧ d.parents ≠ [] := by
  refine ⟨fun d => he.mem_finds_ancestors_iff, ?_, ?_, fun k hk => he.pairwise_place hk, ?_⟩
  · rw [he.finds_ancestors]
    exact fresh_nodup _ _
  · refine (he.pairwise_place (Nat.le_refl _)).imp_of_mem fun _ hd' hlt n n' hn hn' => ?_
    obtain ⟨m, hlow, hhigh, hm⟩ := he.mem_finds_ancestors_iff.1 hd'
    obtain rfl : m = n' := hm.unique hn'
    exact he.isAt_le_of_place_lt hn hn' hlow hhigh hlt
  · intro f
    have hlimit : 1 ≤ maxGenerations := by decide
    rw [ancestors, (Visited.start e).ending_generations he e.key hlimit, Nat.zero_add]

/-- A work that is reached in two ways, directly and through a volume of it, is an ancestor once. -/
theorem ancestors_levels_of_two_paths :
    let series : Entry := ⟨[2], "series", .periodical, [], []⟩
    let volume : Entry := ⟨[1], "volume", .book, [], [series]⟩
    let article : Entry := ⟨[0], "article", .article, [], [series, volume]⟩
    article.Coherent ∧ article.IsAt 1 series ∧ series ∈ article.level 2 ∧
      series ∈ article.ancestors.finds ∧ (article.ancestors.finds.map Entry.id).Nodup := by
  intro series volume article
  have hcoherent : article.Coherent := by
    have hmem : article ∈ [article, volume, series] := List.mem_cons_self ..
    refine Coherent.of_closed hmem ?_ ?_ <;> simp [article, volume, series]
  have hat : article.IsAt 1 series := by
    refine ⟨by simp [article], fun m hm => ?_⟩
    obtain rfl : m = 0 := by omega
    simp [article, series]
  obtain ⟨hmem, hnodup, -⟩ := ancestors_levels hcoherent
  have htwice : series ∈ article.level 2 := by simp [article, volume, level]
  exact ⟨hcoherent, hat, htwice, (hmem series).2 ⟨1, by decide, by decide, hat⟩, hnodup⟩

end Bibliograph.Entry
