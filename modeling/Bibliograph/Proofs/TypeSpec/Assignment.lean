import Bibliograph.Proofs.Sequence
import Bibliograph.TypeSpec
import Mathlib.Data.List.Forall2
import Mathlib.Data.List.Nodup

/-!
# Assignments of parents to requirements

A specification is checked by choosing a parent for one requirement after another, from those that
are not taken, and only if there is no second one to choose from.  A choice that never had an
alternative leaves no other way to give each requirement a parent of its own.

Main definitions:

* `TypeSpec.IsMetBy`, `TypeSpec.Qualifies`: which entries meet a specification, and the positions of
  the parents that meet a requirement;
* `TypeSpec.Assignment`: positions for the requirements, no two of them the same;
* `TypeSpec.Chosen`: positions that are chosen one after another, without an alternative;
* `TypeSpec.Mismatch.Explains`: what a mismatch says about an entry.

Main results:

* `TypeSpec.mem_free_iff`, `TypeSpec.nodup_free`: the positions to choose from;
* `TypeSpec.check_eq_ok_iff`, `TypeSpec.check_eq_error_iff`: **what the check returns**;
* `TypeSpec.Chosen.eq_of_assignment`: there is no assignment but the one that is chosen;
* `TypeSpec.check_only_assignment`: so the check returns the only assignment, and fails for a
  reason.
-/

set_option autoImplicit false

namespace Bibliograph.TypeSpec

variable {e : Entry} {r s : TypeSpec} {rs : List TypeSpec} {taken ps : List Nat} {i j : Nat}

/-- The check of the entry succeeds. -/
def IsMetBy (s : TypeSpec) (e : Entry) : Prop :=
  ∃ ps, s.check e = .ok ps

theorem isOk_check_iff : (s.check e).isOk = true ↔ s.IsMetBy e := by
  unfold IsMetBy
  cases s.check e with
  | error m => simp [Except.isOk, Except.toBool]
  | ok ps => simp [Except.isOk, Except.toBool]

theorem isMetBy_iff_of_map {d : Entry} {f : List Nat → List Nat}
    (h : s.check e = (s.check d).map f) : s.IsMetBy e ↔ s.IsMetBy d := by
  unfold IsMetBy
  rw [h]
  constructor
  · rintro ⟨qs, hqs⟩
    obtain ⟨ps, hps, -⟩ := map_eq_ok_iff.1 hqs
    exact ⟨ps, hps⟩
  · rintro ⟨ps, hps⟩
    exact ⟨f ps, map_eq_ok_iff.2 ⟨ps, hps, rfl⟩⟩

/-- At the position there is a parent of the entry that meets the requirement. -/
def Qualifies (e : Entry) (r : TypeSpec) (i : Nat) : Prop :=
  ∃ p, e.parents[i]? = some p ∧ r.IsMetBy p

theorem Qualifies.lt (h : Qualifies e r i) : i < e.parents.length := by
  obtain ⟨p, hp, -⟩ := h
  exact (List.getElem?_eq_some_iff.1 hp).1

theorem qualifies_val_iff (k : Fin e.parents.length) :
    Qualifies e r k ↔ r.IsMetBy (e.parents.get k) := by
  simp [Qualifies]

/-- A position for each requirement, no two of them the same, of a parent that meets it. -/
structure Assignment (e : Entry) (rs : List TypeSpec) (ps : List Nat) : Prop where
  meets : List.Forall₂ (Qualifies e) rs ps
  nodup : ps.Nodup

theorem Assignment.length_eq (h : Assignment e rs ps) : ps.length = rs.length :=
  h.meets.length_eq.symm

/-- The positions are those of parents. -/
theorem Assignment.lt (h : Assignment e rs ps) (hi : i ∈ ps) : i < e.parents.length := by
  obtain ⟨k, hk, rfl⟩ := List.mem_iff_getElem.1 hi
  have hrs : k < rs.length := h.length_eq ▸ hk
  exact (List.Forall₂.get h.meets hrs hk).lt

/-! ### Positions to choose from -/

/-- The positions of the parents that meet a requirement and are not taken. -/
def free (e : Entry) (taken : List Nat) (r : TypeSpec) : List Nat :=
  freePositions taken (fun p => (check p r).isOk) e.parents

theorem mem_free_iff : i ∈ free e taken r ↔ i ∉ taken ∧ Qualifies e r i := by
  simp only [free, freePositions, List.mem_filterMap, Prod.exists, List.mem_zipIdx_iff_getElem?]
  constructor
  · rintro ⟨p, k, hp, h⟩
    split at h
    · rename_i hfree
      cases h
      exact ⟨hfree.1, p, hp, isOk_check_iff.1 hfree.2⟩
    · cases h
  · rintro ⟨htaken, p, hp, hmet⟩
    exact ⟨p, i, hp, if_pos ⟨htaken, isOk_check_iff.2 hmet⟩⟩

theorem nodup_free (e : Entry) (taken : List Nat) (r : TypeSpec) : (free e taken r).Nodup := by
  have hpositions : (e.parents.zipIdx.map Prod.snd).Nodup := by
    rw [List.zipIdx_map_snd]
    exact List.nodup_range'
  have hpairwise := List.pairwise_map.1 hpositions
  refine List.pairwise_filterMap.2 (hpairwise.imp ?_)
  rintro ⟨p, k⟩ ⟨q, l⟩ hne i hi j hj
  -- a position is kept as it is
  obtain ⟨-, hki⟩ := Option.ite_none_right_eq_some.1 hi
  obtain ⟨-, hlj⟩ := Option.ite_none_right_eq_some.1 hj
  rw [← Option.some.inj hki, ← Option.some.inj hlj]
  exact hne

/-- There is one position to choose from exactly if no other one qualifies. -/
theorem free_eq_singleton_iff :
    free e taken r = [j] ↔ ∀ i, (i ∉ taken ∧ Qualifies e r i) ↔ i = j := by
  rw [← List.perm_singleton,
    List.perm_ext_iff_of_nodup (nodup_free e taken r) (List.nodup_singleton j)]
  simp only [mem_free_iff, List.mem_singleton]

/-! ### Choosing -/

/-- The positions are chosen for the requirements one after another.  Each is the only one that
qualifies among those that are not taken, neither at the start nor by a requirement in front. -/
inductive Chosen (e : Entry) : List Nat → List TypeSpec → List Nat → Prop
  | done {taken : List Nat} : Chosen e taken [] []
  | next {taken : List Nat} {r : TypeSpec} {rs : List TypeSpec} {j : Nat} {js : List Nat}
      (only : ∀ i, (i ∉ taken ∧ Qualifies e r i) ↔ i = j) (rest : Chosen e (taken ++ [j]) rs js) :
      Chosen e taken (r :: rs) (j :: js)

namespace Chosen

variable {js : List Nat}

theorem qualifies (h : Chosen e taken rs js) : List.Forall₂ (Qualifies e) rs js := by
  induction h with
  | done => exact .nil
  | next only _ ih => exact .cons ((only _).2 rfl).2 ih

theorem nodup (h : Chosen e taken rs js) (htaken : taken.Nodup) : (taken ++ js).Nodup := by
  induction h with
  | done =>
      rw [List.append_nil]
      exact htaken
  | @next taken r rs j js only _ ih =>
      have hj : j ∉ taken := ((only j).2 rfl).1
      rw [List.append_cons]
      exact ih (List.nodup_append_comm.1 (List.nodup_cons.2 ⟨hj, htaken⟩))

/-- Nothing else can be assigned to the requirements: at each of them only the chosen position is
left. -/
theorem eq_of_meets (h : Chosen e taken rs js) {qs : List Nat}
    (hmeets : List.Forall₂ (Qualifies e) rs qs) (hnodup : (taken ++ qs).Nodup) : qs = js := by
  induction h generalizing qs with
  | done =>
      cases hmeets
      rfl
  | @next taken r rs j js only _ ih =>
      cases hmeets with
      | @cons _ q _ qs hq hqs =>
          have hfree : q ∉ taken := fun hmem =>
            (List.nodup_append.1 hnodup).2.2 q hmem q (List.mem_cons_self ..) rfl
          obtain rfl : q = j := (only q).1 ⟨hfree, hq⟩
          rw [List.append_cons] at hnodup
          rw [ih hqs hnodup]

theorem assignment (h : Chosen e [] rs js) : Assignment e rs js :=
  ⟨h.qualifies, h.nodup List.nodup_nil⟩

theorem eq_of_assignment (h : Chosen e [] rs js) {qs : List Nat} (hqs : Assignment e rs qs) :
    qs = js :=
  h.eq_of_meets hqs.meets hqs.nodup

end Chosen

/-! ### What the check returns -/

theorem checkParents_of_one (h : free e taken r = [j]) (rs : List TypeSpec) :
    checkParents e taken (r :: rs) = checkParents e (taken ++ [j]) rs := by
  rw [checkParents]
  unfold free at h
  rw [h]

theorem checkParents_of_not_one (h : (free e taken r).length ≠ 1) (rs : List TypeSpec) :
    checkParents e taken (r :: rs) =
      .error (.parentsQualify e.key (free e taken r).length r.here) := by
  rw [checkParents]
  unfold free at h ⊢
  split
  · rename_i hone
    rw [hone] at h
    exact absurd rfl h
  · rfl

/-- The choice goes on behind requirements for which positions are chosen. -/
theorem Chosen.checkParents_append {before : List TypeSpec} {js : List Nat}
    (h : Chosen e taken before js) (rs : List TypeSpec) :
    checkParents e taken (before ++ rs) = checkParents e (taken ++ js) rs := by
  induction h with
  | done => rw [List.nil_append, List.append_nil]
  | @next taken r before j js only _ ih =>
      rw [List.cons_append, checkParents_of_one (free_eq_singleton_iff.2 only), ih,
        ← List.append_cons]

theorem Chosen.checkParents_eq {js : List Nat} (h : Chosen e taken rs js) :
    checkParents e taken rs = .ok (taken ++ js) := by
  have happend := h.checkParents_append []
  rw [List.append_nil, checkParents] at happend
  exact happend

theorem Chosen.checkParents_stuck {before : List TypeSpec} {js : List Nat}
    (h : Chosen e taken before js) (hcount : (free e (taken ++ js) r).length ≠ 1)
    (after : List TypeSpec) :
    checkParents e taken (before ++ r :: after) =
      .error (.parentsQualify e.key (free e (taken ++ js) r).length r.here) := by
  rw [h.checkParents_append, checkParents_of_not_one hcount]

/-- Either a position is chosen for each requirement, or there is a first one without exactly one
position to choose from. -/
theorem exists_chosen_or_stuck (e : Entry) (taken : List Nat) (rs : List TypeSpec) :
    (∃ js, Chosen e taken rs js) ∨
      ∃ before r after js, rs = before ++ r :: after ∧ Chosen e taken before js ∧
        (free e (taken ++ js) r).length ≠ 1 := by
  induction rs generalizing taken with
  | nil => exact .inl ⟨[], .done⟩
  | cons r rs ih =>
      by_cases hone : (free e taken r).length = 1
      · obtain ⟨j, hj⟩ := List.length_eq_one_iff.1 hone
        have only := free_eq_singleton_iff.1 hj
        rcases ih (taken ++ [j]) with ⟨js, hjs⟩ | ⟨before, q, after, js, rfl, hjs, hcount⟩
        · exact .inl ⟨j :: js, .next only hjs⟩
        · rw [← List.append_cons] at hcount
          exact .inr ⟨r :: before, q, after, j :: js, rfl, .next only hjs, hcount⟩
      · rw [← List.append_nil taken] at hone
        exact .inr ⟨[], r, rs, [], rfl, .done, hone⟩

/-- What the choice returns: the positions that are taken, then those that are chosen. -/
theorem checkParents_eq_ok_iff :
    checkParents e taken rs = .ok ps ↔ ∃ js, ps = taken ++ js ∧ Chosen e taken rs js := by
  constructor
  · intro h
    rcases exists_chosen_or_stuck e taken rs with
      ⟨js, hjs⟩ | ⟨before, r, after, js, rfl, hjs, hcount⟩
    · rw [hjs.checkParents_eq] at h
      cases h
      exact ⟨js, rfl, hjs⟩
    · rw [hjs.checkParents_stuck hcount] at h
      cases h
  · rintro ⟨js, rfl, hjs⟩
    exact hjs.checkParents_eq

/-- Where the choice fails: at the first requirement without exactly one position to choose from. -/
theorem checkParents_eq_error_iff {m : Mismatch} :
    checkParents e taken rs = .error m ↔
      ∃ before r after js, rs = before ++ r :: after ∧ Chosen e taken before js ∧
        (free e (taken ++ js) r).length ≠ 1 ∧
        m = .parentsQualify e.key (free e (taken ++ js) r).length r.here := by
  constructor
  · intro h
    rcases exists_chosen_or_stuck e taken rs with
      ⟨js, hjs⟩ | ⟨before, r, after, js, rfl, hjs, hcount⟩
    · rw [hjs.checkParents_eq] at h
      cases h
    · rw [hjs.checkParents_stuck hcount] at h
      cases h
      exact ⟨before, r, after, js, rfl, hjs, hcount, rfl⟩
  · rintro ⟨before, r, after, js, rfl, hjs, hcount, rfl⟩
    exact hjs.checkParents_stuck hcount after

/-- **When a specification is met**: the type is accepted and a position is chosen for each
requirement. -/
theorem check_eq_ok_iff :
    s.check e = .ok ps ↔ s.here.accepts e.type = true ∧ Chosen e [] s.parents ps := by
  obtain ⟨here, rs⟩ := s
  rw [check]
  by_cases htype : here.accepts e.type = true
  · rw [if_pos htype, checkParents_eq_ok_iff]
    constructor
    · rintro ⟨js, rfl, hjs⟩
      exact ⟨htype, hjs⟩
    · rintro ⟨-, hjs⟩
      exact ⟨ps, rfl, hjs⟩
  · rw [if_neg htype]
    constructor
    · intro h
      cases h
    · rintro ⟨h, -⟩
      exact absurd h htype

/-- What a mismatch says: the type is not accepted, or the number of positions to choose from is not
one at the first requirement where that is so. -/
inductive Mismatch.Explains (s : TypeSpec) (e : Entry) : Mismatch → Prop
  | type (h : s.here.accepts e.type = false) : Explains s e (.typeNotAccepted e.key e.type)
  | parents (htype : s.here.accepts e.type = true) {before after : List TypeSpec} {r : TypeSpec}
      {js : List Nat} (hs : s.parents = before ++ r :: after) (hjs : Chosen e [] before js)
      (hcount : (free e js r).length ≠ 1) :
      Explains s e (.parentsQualify e.key (free e js r).length r.here)

/-- **Why a specification is not met.** -/
theorem check_eq_error_iff {m : Mismatch} : s.check e = .error m ↔ m.Explains s e := by
  obtain ⟨here, rs⟩ := s
  rw [check]
  by_cases htype : here.accepts e.type = true
  · rw [if_pos htype, checkParents_eq_error_iff]
    constructor
    · rintro ⟨before, r, after, js, hs, hjs, hcount, rfl⟩
      have haccepted : (spec here rs).here.accepts e.type = true := htype
      exact .parents haccepted hs hjs hcount
    · intro h
      cases h with
      | type hfalse => exact absurd (htype.symm.trans hfalse) Bool.noConfusion
      | parents _ hs hjs hcount => exact ⟨_, _, _, _, hs, hjs, hcount, rfl⟩
  · rw [if_neg htype]
    constructor
    · intro h
      cases h
      exact .type (Bool.not_eq_true _ ▸ htype)
    · intro h
      cases h with
      | type _ => rfl
      | parents htrue => exact absurd htrue htype

/-- **The check returns the only assignment.**  If it returns positions, the type of the entry is
accepted and the positions are the only assignment of parents to the requirements.  Otherwise it
fails, for a reason that the mismatch names. -/
theorem check_only_assignment (e : Entry) (s : TypeSpec) :
    (∀ ps, s.check e = .ok ps →
      s.here.accepts e.type = true ∧ ps.length = s.parents.length ∧
        (∀ i ∈ ps, i < e.parents.length) ∧ Assignment e s.parents ps ∧
        ∀ qs, Assignment e s.parents qs → qs = ps) ∧
    ((∀ ps, s.check e ≠ .ok ps) → ∃ m, s.check e = .error m ∧ m.Explains s e) := by
  constructor
  · intro ps hps
    obtain ⟨htype, hchosen⟩ := check_eq_ok_iff.1 hps
    have hassigned := hchosen.assignment
    exact ⟨htype, hassigned.length_eq, fun i hi => hassigned.lt hi, hassigned,
      fun qs hqs => hchosen.eq_of_assignment hqs⟩
  · intro hnot
    cases hcheck : s.check e with
    | error m => exact ⟨m, rfl, check_eq_error_iff.1 hcheck⟩
    | ok ps => exact absurd hcheck (hnot ps)

/-- A chapter of a book that is on a web page.  Both parents could be any parent; once the book is
taken, the other requirement is left with one position.  Of two books none is the only one. -/
theorem check_only_assignment_of_chapter :
    let page : Entry := ⟨[2], "page", .web, [], []⟩
    let book : Entry := ⟨[1], "book", .book, [], [page]⟩
    let chapter : Entry := ⟨[0], "chapter", .chapter, [], [page, book]⟩
    let printed : TypeSpec := spec (.specific .book) [spec .any []]
    let s : TypeSpec := spec (.specific .chapter) [printed, spec .any []]
    let t : TypeSpec := spec .any [spec .any []]
    s.check chapter = .ok [1, 0] ∧
      (∀ qs, Assignment chapter [printed, spec .any []] qs → qs = [1, 0]) ∧
      (∀ ps, t.check chapter ≠ .ok ps) ∧
      ∃ m, t.check chapter = .error m ∧ m.Explains t chapter := by
  intro page book chapter printed s t
  have hs : s.check chapter = .ok [1, 0] := rfl
  have ht : ∀ ps, t.check chapter ≠ .ok ps := by
    intro ps h
    cases h
  exact ⟨hs, ((check_only_assignment chapter s).1 [1, 0] hs).2.2.2.2, ht,
    (check_only_assignment chapter t).2 ht⟩

end Bibliograph.TypeSpec
