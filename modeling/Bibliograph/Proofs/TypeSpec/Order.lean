import Bibliograph.Proofs.TypeSpec.Assignment
import Mathlib.Data.List.FinRange
import Mathlib.Logic.Equiv.Defs

/-!
# Requirements in another order

A requirement is judged by the parents that the requirements in front of it have left over.  So the
order of the requirements matters where a parent meets two of them: a requirement that two parents
meet fails as long as both are left, and not when one of them is taken before.

A specification of an accepted type is met in every order exactly if each requirement is met by
exactly one parent and no parent meets two.  Where no parent meets two, here and further up, no
order makes a difference.

Main definitions:

* `TypeSpec.EachByOne`: each requirement is met by one parent, no parent meets two;
* `TypeSpec.Reordering`: another order of the requirements, at any level;
* `TypeSpec.KeptApart`: no parent meets two requirements, at any level.

Main results:

* `TypeSpec.isMetBy_every_order_iff`: which specifications are met in every order;
* `TypeSpec.Chosen.positions_along`: the positions follow the requirements into their new order;
* `TypeSpec.KeptApart.verdict`: the verdict does not depend on an order at any level;
* `TypeSpec.check_in_other_orders`: these three together;
* `TypeSpec.check_depends_on_order`: a specification that is met in one order only.
-/

set_option autoImplicit false

namespace Bibliograph.TypeSpec

variable {e : Entry} {r s t : TypeSpec} {rs ts : List TypeSpec} {taken ps qs : List Nat}

instance : Decidable (s.IsMetBy e) :=
  decidable_of_iff _ isOk_check_iff

/-! ### One parent for each requirement -/

/-- No parent of the entry meets both requirements. -/
def Apart (e : Entry) (r r' : TypeSpec) : Prop :=
  ∀ i, ¬ (Qualifies e r i ∧ Qualifies e r' i)

theorem apart_iff {r' : TypeSpec} :
    Apart e r r' ↔ ∀ p ∈ e.parents, ¬ (r.IsMetBy p ∧ r'.IsMetBy p) := by
  constructor
  · rintro h p hp ⟨hr, hr'⟩
    obtain ⟨i, hi⟩ := List.mem_iff_getElem?.1 hp
    exact h i ⟨⟨p, hi, hr⟩, p, hi, hr'⟩
  · rintro h i ⟨⟨p, hp, hr⟩, q, hq, hr'⟩
    rw [hp] at hq
    cases hq
    exact h p (List.mem_of_getElem? hp) ⟨hr, hr'⟩

instance (r' : TypeSpec) : Decidable (Apart e r r') :=
  decidable_of_iff _ apart_iff.symm

/-- Each requirement is met by exactly one parent, and no parent meets two of them. -/
structure EachByOne (e : Entry) (rs : List TypeSpec) : Prop where
  one : ∀ r ∈ rs, ∃ j, ∀ i, Qualifies e r i ↔ i = j
  apart : rs.Pairwise (Apart e)

/-- A position for each requirement can be chosen, as none of them is taken. -/
theorem EachByOne.exists_chosen (h : EachByOne e rs)
    (htaken : ∀ r ∈ rs, ∀ i ∈ taken, ¬ Qualifies e r i) : ∃ js, Chosen e taken rs js := by
  induction rs generalizing taken with
  | nil => exact ⟨[], .done⟩
  | cons r rs ih =>
      obtain ⟨j, hj⟩ := h.one r (List.mem_cons_self ..)
      obtain ⟨happart, hrest⟩ := List.pairwise_cons.1 h.apart
      have hqualifies : Qualifies e r j := (hj j).2 rfl
      have only : ∀ i, (i ∉ taken ∧ Qualifies e r i) ↔ i = j := by
        intro i
        constructor
        · rintro ⟨-, hi⟩
          exact (hj i).1 hi
        · rintro rfl
          exact ⟨fun hmem => htaken r (List.mem_cons_self ..) i hmem hqualifies, hqualifies⟩
      have hnext : ∀ q ∈ rs, ∀ i ∈ taken ++ [j], ¬ Qualifies e q i := by
        intro q hq i hi hqi
        rcases List.mem_append.1 hi with hi | hi
        · exact htaken q (List.mem_cons_of_mem _ hq) i hi hqi
        · obtain rfl := List.mem_singleton.1 hi
          exact happart q hq i ⟨hqualifies, hqi⟩
      obtain ⟨js, hjs⟩ := ih ⟨fun q hq => h.one q (List.mem_cons_of_mem _ hq), hrest⟩ hnext
      exact ⟨j :: js, .next only hjs⟩

/-- Where no parent meets two requirements, a position that is chosen has never had an alternative
among those that are taken. -/
theorem Chosen.one_of_apart {js : List Nat} (h : Chosen e taken rs js)
    (hapart : rs.Pairwise (Apart e)) (htaken : ∀ r ∈ rs, ∀ i ∈ taken, ¬ Qualifies e r i) :
    ∀ r ∈ rs, ∃ j, ∀ i, Qualifies e r i ↔ i = j := by
  induction h with
  | done =>
      intro r hr
      cases hr
  | @next taken r rs j js only _ ih =>
      obtain ⟨hhead, hrest⟩ := List.pairwise_cons.1 hapart
      have hqualifies : Qualifies e r j := ((only j).2 rfl).2
      intro q hq
      rcases List.mem_cons.1 hq with rfl | hq
      · refine ⟨j, fun i => ⟨fun hi => ?_, ?_⟩⟩
        · exact (only i).1 ⟨fun hmem => htaken q (List.mem_cons_self ..) i hmem hi, hi⟩
        · rintro rfl
          exact hqualifies
      · refine ih hrest (fun p hp i hi hpi => ?_) q hq
        rcases List.mem_append.1 hi with hi | hi
        · exact htaken p (List.mem_cons_of_mem _ hp) i hi hpi
        · obtain rfl := List.mem_singleton.1 hi
          exact hhead p hp i ⟨hqualifies, hpi⟩

/-- The position that is chosen for a requirement was not taken. -/
theorem Chosen.exists_not_mem {js : List Nat} (h : Chosen e taken rs js) :
    ∀ r ∈ rs, ∃ j, j ∉ taken ∧ Qualifies e r j := by
  induction h with
  | done =>
      intro r hr
      cases hr
  | @next taken r rs j js only _ ih =>
      intro q hq
      rcases List.mem_cons.1 hq with rfl | hq
      · exact ⟨j, (only j).2 rfl⟩
      · obtain ⟨k, hk, hqk⟩ := ih q hq
        exact ⟨k, fun hmem => hk (List.mem_append_left _ hmem), hqk⟩

/-- If each requirement is met by one parent only, these parents are different. -/
theorem Chosen.apart_of_one {js : List Nat} (h : Chosen e taken rs js)
    (hone : ∀ r ∈ rs, ∃ j, ∀ i, Qualifies e r i ↔ i = j) : rs.Pairwise (Apart e) := by
  induction h with
  | done => exact .nil
  | @next taken r rs j js only hjs ih =>
      refine .cons ?_ (ih fun q hq => hone q (List.mem_cons_of_mem _ hq))
      rintro q hq i ⟨hri, hqi⟩
      obtain ⟨k, hk⟩ := hone r (List.mem_cons_self ..)
      obtain ⟨l, hl⟩ := hone q (List.mem_cons_of_mem _ hq)
      obtain ⟨m, hfree, hqm⟩ := hjs.exists_not_mem q hq
      have hij : i = j := ((hk i).1 hri).trans ((hk j).1 ((only j).2 rfl).2).symm
      have him : i = m := ((hl i).1 hqi).trans ((hl m).1 hqm).symm
      rw [← him, hij] at hfree
      exact hfree (List.mem_append_right _ (List.mem_cons_self ..))

/-- When a specification is met, whatever the positions are. -/
theorem isMetBy_iff : s.IsMetBy e ↔
    s.here.accepts e.type = true ∧ ∃ js, Chosen e [] s.parents js := by
  unfold IsMetBy
  simp only [check_eq_ok_iff, exists_and_left]

theorem isMetBy_iff_of_apart (h : s.parents.Pairwise (Apart e)) :
    s.IsMetBy e ↔ s.here.accepts e.type = true ∧ EachByOne e s.parents := by
  rw [isMetBy_iff]
  refine and_congr_right fun _ => ⟨?_, fun heach => heach.exists_chosen fun _ _ i hi => ?_⟩
  · rintro ⟨js, hjs⟩
    exact ⟨hjs.one_of_apart h fun _ _ i hi => absurd hi List.not_mem_nil, h⟩
  · cases hi

/-- Whether requirements are apart depends only on the positions that qualify for each. -/
theorem pairwise_apart_of_perm (h : rs.Pairwise (Apart e))
    (hperm : (rs.map (Qualifies e)).Perm (ts.map (Qualifies e))) : ts.Pairwise (Apart e) := by
  have hmapped : (rs.map (Qualifies e)).Pairwise fun q q' => ∀ i, ¬ (q i ∧ q' i) :=
    List.pairwise_map.2 h
  rw [hperm.pairwise_iff fun h i hi => h i hi.symm] at hmapped
  have hts : ts.Pairwise fun t t' => ∀ i, ¬ (Qualifies e t i ∧ Qualifies e t' i) :=
    List.pairwise_map.1 hmapped
  exact hts

theorem EachByOne.of_perm (h : EachByOne e rs)
    (hperm : (rs.map (Qualifies e)).Perm (ts.map (Qualifies e))) : EachByOne e ts := by
  refine ⟨fun t ht => ?_, pairwise_apart_of_perm h.apart hperm⟩
  obtain ⟨r, hr, hrt⟩ := List.mem_map.1 (hperm.mem_iff.2 (List.mem_map_of_mem ht))
  rw [← hrt]
  exact h.one r hr

/-- **Which specifications are met in every order of their requirements.** -/
theorem isMetBy_every_order_iff :
    (∀ ts, ts.Perm s.parents → (spec s.here ts).IsMetBy e) ↔
      s.here.accepts e.type = true ∧ EachByOne e s.parents := by
  constructor
  · intro h
    obtain ⟨htype, js, hjs⟩ := isMetBy_iff.1 (h s.parents (.refl _))
    have hone : ∀ r ∈ s.parents, ∃ j, ∀ i, Qualifies e r i ↔ i = j := by
      intro r hr
      obtain ⟨before, after, hs⟩ := List.append_of_mem hr
      -- in front of all others the requirement can choose from all parents
      have hperm : (r :: (before ++ after)).Perm s.parents := hs ▸ List.perm_middle.symm
      obtain ⟨-, js, hjs⟩ := isMetBy_iff.1 (h _ hperm)
      cases hjs with
      | @next _ _ _ j _ only _ =>
          exact ⟨j, fun i => ⟨fun hi => (only i).1 ⟨List.not_mem_nil, hi⟩, fun hi =>
            ((only i).2 hi).2⟩⟩
    exact ⟨htype, hone, hjs.apart_of_one hone⟩
  · rintro ⟨htype, heach⟩ ts hperm
    have hts : EachByOne e ts := heach.of_perm (hperm.symm.map _)
    exact isMetBy_iff.2 ⟨htype, hts.exists_chosen fun _ _ i hi => absurd hi List.not_mem_nil⟩

/-! ### Positions -/

theorem map_get_finRange_comp {α β : Type} (f : α → β) (l : List α) :
    (List.finRange l.length).map (fun k => f (l.get k)) = l.map f := by
  rw [← Function.comp_def, ← List.map_map, List.map_get_finRange]

/-- The requirements in another order have the same positions that qualify, in another order. -/
theorem perm_of_order (order : Fin rs.length ≃ Fin ts.length)
    (hsame : ∀ k, Qualifies e (ts.get (order k)) = Qualifies e (rs.get k)) :
    (rs.map (Qualifies e)).Perm (ts.map (Qualifies e)) := by
  have horder : ((List.finRange rs.length).map order).Perm (List.finRange ts.length) := by
    have hnodup := (List.nodup_finRange rs.length).map order.injective
    refine (List.perm_ext_iff_of_nodup hnodup (List.nodup_finRange ts.length)).2 fun k => ?_
    simp only [List.mem_finRange, iff_true]
    exact List.mem_map.2 ⟨order.symm k, List.mem_finRange _, order.apply_symm_apply k⟩
  have hperm := horder.map fun k => Qualifies e (ts.get k)
  rw [List.map_map, Function.comp_def, map_get_finRange_comp] at hperm
  simp only [hsame] at hperm
  rw [map_get_finRange_comp] at hperm
  exact hperm

/-- **The positions follow the requirements into their new order.** -/
theorem Chosen.positions_along (hps : Chosen e [] rs ps) (hqs : Assignment e ts qs)
    (order : Fin rs.length ≃ Fin ts.length)
    (hsame : ∀ k, Qualifies e (ts.get (order k)) = Qualifies e (rs.get k)) (k : Fin rs.length) :
    qs[(order k : Nat)]? = ps[(k : Nat)]? := by
  have hlength : ts.length = qs.length := hqs.length_eq.symm
  -- the position of each requirement, looked up where the requirement has gone
  let back : List Nat := List.ofFn fun k => qs.get ((order k).cast hlength)
  have hmeets : List.Forall₂ (Qualifies e) rs back := by
    refine List.forall₂_iff_get.2 ⟨List.length_ofFn.symm, fun l hl hl' => ?_⟩
    have hindex := (order ⟨l, hl⟩).isLt
    have hqualifies := List.Forall₂.get hqs.meets hindex (hlength ▸ hindex)
    rw [List.get_ofFn, ← hsame ⟨l, hl⟩]
    exact hqualifies
  have hnodup : back.Nodup := by
    refine List.nodup_ofFn.2 fun k l hkl => order.injective (Fin.cast_injective hlength ?_)
    exact hqs.nodup.injective_get hkl
  have hback : back = ps := hps.eq_of_assignment ⟨hmeets, hnodup⟩
  rw [← hback, List.getElem?_ofFn, dif_pos k.isLt]
  exact List.getElem?_eq_getElem (hlength ▸ (order k).isLt)

/-! ### Reorderings at all levels -/

/-- Another order of the requirements, of what they require of the parents further up, and so on. -/
inductive Reordering : TypeSpec → TypeSpec → Type
  | mk {s t : TypeSpec} (here_eq : t.here = s.here)
      (order : Fin s.parents.length ≃ Fin t.parents.length)
      (above : ∀ k, Reordering (s.parents.get k) (t.parents.get (order k))) : Reordering s t

/-- Where the requirements on the parents have gone. -/
def Reordering.order {s t : TypeSpec} : Reordering s t → Fin s.parents.length ≃ Fin t.parents.length
  | mk _ order _ => order

/-- The requirements as they are. -/
def Reordering.refl : (s : TypeSpec) → Reordering s s
  | spec here rs => .mk rfl (Equiv.refl _) fun k =>
    have := List.sizeOf_lt_of_mem (List.get_mem rs k)
    refl (rs.get k)

/-- No parent meets two requirements, and so it is for the parents and what is required of them. -/
inductive KeptApart : Entry → TypeSpec → Prop
  | mk {e : Entry} {s : TypeSpec} (here : s.parents.Pairwise (Apart e))
      (above : ∀ p ∈ e.parents, ∀ r ∈ s.parents, KeptApart p r) : KeptApart e s

/-- Requirements with the same verdicts on the parents have the same positions that qualify. -/
theorem qualifies_congr (h : ∀ p ∈ e.parents, t.IsMetBy p ↔ s.IsMetBy p) :
    Qualifies e t = Qualifies e s := by
  funext i
  refine propext (exists_congr fun p => and_congr_right fun hp => h p ?_)
  exact List.mem_of_getElem? hp

theorem KeptApart.of_no_parents (h : s.parents = []) : KeptApart e s := by
  refine .mk (h ▸ .nil) fun p _ r hr => ?_
  rw [h] at hr
  cases hr

/-- **Where no parent meets two requirements, the verdict does not depend on an order**, and the
positions that qualify for a requirement do not either. -/
theorem KeptApart.verdict (h : KeptApart e s) (order : Reordering s t) :
    (t.IsMetBy e ↔ s.IsMetBy e) ∧
      ∀ k, Qualifies e (t.parents.get (order.order k)) = Qualifies e (s.parents.get k) := by
  induction order generalizing e with
  | @mk s t here_eq order above ih =>
      obtain ⟨hapart, habove⟩ := h
      have hsame : ∀ k, Qualifies e (t.parents.get (order k)) = Qualifies e (s.parents.get k) :=
        fun k => qualifies_congr fun p hp => (ih k (habove p hp _ (List.get_mem _ k))).1
      have hperm := perm_of_order order hsame
      have heach : EachByOne e t.parents ↔ EachByOne e s.parents :=
        ⟨fun h => h.of_perm hperm.symm, fun h => h.of_perm hperm⟩
      refine ⟨?_, hsame⟩
      rw [isMetBy_iff_of_apart hapart, isMetBy_iff_of_apart (pairwise_apart_of_perm hapart hperm),
        here_eq, heach]

/-! ### The order of the requirements -/

/-- **What the order of the requirements does.**  A specification is met in every order exactly if
the type is accepted, each requirement is met by exactly one parent and no parent meets two.  If it
is met in two orders, the positions are in the order of the requirements.  Where no parent meets two
requirements, at this level and further up, an order at any level changes neither the verdict nor
which parent is found for a requirement. -/
theorem check_in_other_orders (e : Entry) (s : TypeSpec) :
    ((∀ ts, ts.Perm s.parents → (spec s.here ts).IsMetBy e) ↔
      s.here.accepts e.type = true ∧ EachByOne e s.parents) ∧
    (∀ ts (order : Fin s.parents.length ≃ Fin ts.length),
      (∀ k, ts.get (order k) = s.parents.get k) →
      ∀ ps qs, s.check e = .ok ps → (spec s.here ts).check e = .ok qs →
        ∀ k, qs[(order k : Nat)]? = ps[(k : Nat)]?) ∧
    (KeptApart e s → ∀ t (r : Reordering s t),
      (t.IsMetBy e ↔ s.IsMetBy e) ∧
      ∀ ps qs, s.check e = .ok ps → t.check e = .ok qs →
        ∀ k, qs[(r.order k : Nat)]? = ps[(k : Nat)]?) := by
  refine ⟨isMetBy_every_order_iff, ?_, ?_⟩
  · intro ts order hts ps qs hps hqs k
    have hchosen := (check_eq_ok_iff.1 hps).2
    have hassigned := (check_eq_ok_iff.1 hqs).2.assignment
    exact hchosen.positions_along hassigned order (fun k => congrArg (Qualifies e) (hts k)) k
  · intro hapart t r
    obtain ⟨hverdict, hsame⟩ := hapart.verdict r
    refine ⟨hverdict, fun ps qs hps hqs k => ?_⟩
    have hchosen := (check_eq_ok_iff.1 hps).2
    have hassigned := (check_eq_ok_iff.1 hqs).2.assignment
    exact hchosen.positions_along hassigned r.order hsame k

/-- A chapter of an article and of a book that is both on a web page and in a periodical.  The two
requirements are put into the other order, alone and together with those of the first one. -/
theorem check_in_other_orders_of_chapter :
    let page : Entry := ⟨[3], "page", .web, [], []⟩
    let journal : Entry := ⟨[2], "journal", .periodical, [], []⟩
    let book : Entry := ⟨[1], "book", .book, [], [page, journal]⟩
    let article : Entry := ⟨[4], "article", .article, [], [journal]⟩
    let chapter : Entry := ⟨[0], "chapter", .chapter, [], [article, book]⟩
    let online : TypeSpec := spec (.specific .web) []
    let serial : TypeSpec := spec (.specific .periodical) []
    let printed : TypeSpec := spec (.specific .article) [serial]
    let s : TypeSpec := spec .any [spec .any [online, serial], printed]
    let t : TypeSpec := spec .any [printed, spec .any [serial, online]]
    KeptApart chapter s ∧ s.check chapter = .ok [1, 0] ∧
      (∀ ts, ts.Perm s.parents → (spec .any ts).IsMetBy chapter) ∧
      (∀ qs, (spec .any [printed, spec .any [online, serial]]).check chapter = .ok qs →
        qs[1]? = some 1 ∧ qs[0]? = some 0) ∧
      t.IsMetBy chapter ∧ ∀ qs, t.check chapter = .ok qs → qs[1]? = some 1 ∧ qs[0]? = some 0 := by
  intro page journal book article chapter online serial printed s t
  have hs : s.check chapter = .ok [1, 0] := rfl
  have hapart : KeptApart chapter s := by
    have hbelow : ∀ p ∈ chapter.parents, ∀ r ∈ s.parents, r.parents.Pairwise (Apart p) := by decide
    have hleaf : ∀ r ∈ s.parents, ∀ q ∈ r.parents, q.parents.length = 0 := by decide
    refine .mk (by decide) fun p hp r hr => .mk (hbelow p hp r hr) fun a _ q hq => ?_
    exact .of_no_parents (List.length_eq_zero_iff.1 (hleaf r hr q hq))
  have heach : EachByOne chapter s.parents :=
    ((isMetBy_iff_of_apart (by decide : s.parents.Pairwise (Apart chapter))).1 ⟨_, hs⟩).2
  let inner : Reordering (spec .any [online, serial]) (spec .any [serial, online]) :=
    .mk rfl Fin.revPerm fun (k : Fin 2) => match k with
      | 0 => .refl online
      | 1 => .refl serial
  let both : Reordering s t :=
    .mk rfl Fin.revPerm fun (k : Fin 2) => match k with
      | 0 => inner
      | 1 => .refl printed
  obtain ⟨hevery, halone, hdeep⟩ := check_in_other_orders chapter s
  obtain ⟨hverdict, hboth⟩ := hdeep hapart t both
  refine ⟨hapart, hs, hevery.2 ⟨rfl, heach⟩, fun qs hqs => ?_, hverdict.2 ⟨_, hs⟩, fun qs hqs => ?_⟩
  · have hsame : ∀ k : Fin 2, [printed, spec .any [online, serial]].get (Fin.revPerm k) =
        s.parents.get k := fun
      | 0 => rfl
      | 1 => rfl
    have hpositions := halone [printed, spec .any [online, serial]]
      (Fin.revPerm : Fin 2 ≃ Fin 2) hsame [1, 0] qs hs hqs
    exact ⟨hpositions (0 : Fin 2), hpositions (1 : Fin 2)⟩
  · have hpositions := hboth [1, 0] qs hs hqs
    exact ⟨hpositions (0 : Fin 2), hpositions (1 : Fin 2)⟩

/-- **The verdict depends on the order of the requirements** where a parent meets two of them.  Both
parents meet the second requirement; it is met by one parent when the book is taken before it, and
by two when it comes first. -/
theorem check_depends_on_order :
    let book : Entry := ⟨[1], "book", .book, [], []⟩
    let article : Entry := ⟨[2], "article", .article, [], []⟩
    let review : Entry := ⟨[0], "review", .misc, [], [book, article]⟩
    let s : TypeSpec := spec .any [spec (.specific .book) [], spec .any []]
    let t : TypeSpec := spec .any [spec .any [], spec (.specific .book) []]
    t.parents.Perm s.parents ∧ s.check review = .ok [0, 1] ∧
      t.check review = .error (.parentsQualify "review" 2 .any) ∧
      ¬ (t.IsMetBy review ↔ s.IsMetBy review) := by
  intro book article review s t
  have hs : s.check review = .ok [0, 1] := rfl
  have ht : t.check review = .error (.parentsQualify "review" 2 .any) := rfl
  refine ⟨.swap _ _ _, hs, ht, fun h => ?_⟩
  obtain ⟨ps, hps⟩ := h.2 ⟨_, hs⟩
  rw [ht] at hps
  cases hps

end Bibliograph.TypeSpec
