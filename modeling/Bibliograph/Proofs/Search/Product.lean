import Bibliograph.Search.Replay

/-!
# Replays and products through their finds

A replay is asked by several runs in turn, and each run leaves it with more of its finds kept.  For
what a run finds this makes no difference: it is always all the finds from its position on, and what
comes after it sees the replay with everything asked.

Main definitions:

* `Search.Replay.ending`: the failure behind the finds of a replay;
* `Search.Replay.spent`: the replay with everything asked;
* `Search.Replay.onward`: how a run goes on behind the last find.

Main results:

* `Search.Replay.runFrom_eq`: a run is the list of the finds from its position on, followed by what
  comes after it;
* `Search.finds_product`, `Search.ending_product`: a product is the product of the two lists of
  finds, the left one outside, as far as the replay can be asked to its end.
-/

set_option autoImplicit false

namespace Bibliograph

namespace Trail

variable {ε α β : Type}

theorem ending_each {as : List α} {f : α → Trail ε β} (h : ∀ a ∈ as, (f a).ending = none) :
    (each as f).ending = none := by
  induction as with
  | nil => rfl
  | cons a as ih =>
      simp only [List.mem_cons, forall_eq_or_imp] at h
      simp [each, ending_append, h.1, ih h.2]

end Trail

namespace Search

variable {ε α β γ : Type}

namespace Replay

/-! ### Runs -/

/-- The failure behind the finds, if there is one. -/
def ending (r : Replay ε α) : Option ε :=
  (r.ahead ()).ending

/-- The replay of which everything has been asked. -/
def spent (r : Replay ε α) : Replay ε α where
  kept := r.finds.toArray
  ahead := fun _ => .done

/-- How a run goes on behind the last find. -/
def onward (r : Replay ε α) (next : Replay ε α → Trail ε γ) : Trail ε γ :=
  match r.ending with
  | some e => .failed e
  | none => next r.spent

@[simp] theorem finds_spent (r : Replay ε α) : r.spent.finds = r.finds := by
  simp [spent, finds]

@[simp] theorem ending_spent (r : Replay ε α) : r.spent.ending = none := rfl

@[simp] theorem finds_ofTrail (t : Unit → Trail ε α) : (ofTrail t).finds = (t ()).finds := by
  simp [ofTrail, finds]

@[simp] theorem ending_ofTrail (t : Unit → Trail ε α) : (ofTrail t).ending = (t ()).ending := rfl

/-- Asking changes neither the finds nor what is behind them. -/
theorem ending_of_pull {r r' : Replay ε α} {i : Nat} {a : α} (h : r.pull i = .find a r') :
    r'.ending = r.ending := by
  rw [pull_eq] at h
  split at h
  · cases h; rfl
  · split at h
    · cases h
    · cases h
    · rename_i b rest hr
      cases h
      simp [ending, hr]

theorem onward_of_pull {r r' : Replay ε α} {i : Nat} {a : α} (h : r.pull i = .find a r')
    (next : Replay ε α → Trail ε γ) : r'.onward next = r.onward next := by
  simp only [onward, spent, ending_of_pull h, finds_of_pull h]

/-- A find at a position is the find there of the whole list. -/
theorem drop_of_pull_find {r r' : Replay ε α} {i : Nat} {a : α} (h : r.pull i = .find a r')
    (hi : i ≤ r.kept.size) : r.finds.drop i = a :: r.finds.drop (i + 1) := by
  have key : r.finds[i]? = some a := by
    rw [pull_eq] at h
    split at h
    · rename_i hlt
      cases h
      rw [finds, List.getElem?_append_left (by simpa using hlt)]
      simp [hlt]
    · rename_i hge
      split at h
      · cases h
      · cases h
      · rename_i b rest hr
        cases h
        have hsize : i = r.kept.size := by omega
        rw [finds, List.getElem?_append_right (by simp [hsize]), hr]
        simp [hsize]
  obtain ⟨hlt, hget⟩ := List.getElem?_eq_some_iff.1 key
  rw [List.drop_eq_getElem_cons hlt, hget]

/-- Behind the finds that are kept, with nothing ahead, there are no finds. -/
theorem drop_eq_nil_of_ahead {r : Replay ε α} {i : Nat} (hi : ¬ i < r.kept.size)
    (hr : (r.ahead ()).finds = []) : r.finds.drop i = [] := by
  rw [finds, hr, List.append_nil]
  exact List.drop_eq_nil_of_le (by simpa using Nat.not_lt.1 hi)

/-- A run that is told of no further find has seen them all, and leaves the replay spent. -/
theorem drop_of_pull_exhausted {r r' : Replay ε α} {i : Nat} (h : r.pull i = .exhausted r') :
    r.finds.drop i = [] ∧ r.ending = none ∧ r' = r.spent := by
  rw [pull_eq] at h
  split at h
  · cases h
  · rename_i hi
    split at h
    · rename_i hr
      cases h
      refine ⟨drop_eq_nil_of_ahead hi (by rw [hr]; rfl), by rw [ending, hr]; rfl, ?_⟩
      simp [spent, finds, hr]
    · cases h
    · cases h

/-- A run that is told of a failure has seen all finds before it. -/
theorem drop_of_pull_failed {r : Replay ε α} {i : Nat} {e : ε} (h : r.pull i = .failed e) :
    r.finds.drop i = [] ∧ r.ending = some e := by
  rw [pull_eq] at h
  split at h
  · cases h
  · rename_i hi
    split at h
    · cases h
    · rename_i d hr
      cases h
      exact ⟨drop_eq_nil_of_ahead hi (by rw [hr]; rfl), by rw [ending, hr]; rfl⟩
    · cases h

/-- **A run is the list of the finds** from its position on, whatever was asked before. -/
theorem runFrom_eq (f : α → γ) (r : Replay ε α) (i : Nat) (hi : i ≤ r.kept.size)
    (next : Replay ε α → Trail ε γ) :
    r.runFrom f i hi next =
      (Trail.ofList ((r.finds.drop i).map f)).append fun _ => r.onward next := by
  induction r, i, hi using runFrom.induct with
  | case1 r i hi a r' h ih =>
      rw [runFrom_of_find f hi next h, drop_of_pull_find h hi, ih, finds_of_pull h,
        onward_of_pull h]
      rfl
  | case2 r i hi r' h =>
      obtain ⟨hd, he, rfl⟩ := drop_of_pull_exhausted h
      rw [runFrom_of_exhausted f hi next h, hd, onward, he]
      rfl
  | case3 r i hi e h =>
      obtain ⟨hd, he⟩ := drop_of_pull_failed h
      rw [runFrom_of_failed f hi next h, hd, onward, he]
      rfl

theorem run_eq (f : α → γ) (r : Replay ε α) (next : Replay ε α → Trail ε γ) :
    r.run f next = (Trail.ofList (r.finds.map f)).append fun _ => r.onward next := by
  rw [run, runFrom_eq, List.drop_zero]

end Replay

/-! ### Products -/

/-- What a product does behind its first round: it ends if the replay had nothing to give. -/
theorem product_found (f : α → β → γ) (a : α) (rest : Unit → Trail ε α) (r : Replay ε β) :
    product f (.found a rest) r =
      (Trail.ofList (r.finds.map (f a))).append fun _ => r.onward fun r' =>
        if r.finds = [] then .done else product f (rest ()) r' := by
  have hkept : ∀ r' : Replay ε β, r' = r.spent → (r'.kept.isEmpty = true ↔ r.finds = []) := by
    rintro r' rfl
    simp [Replay.spent]
  rw [product, Replay.run_eq]
  congr 1
  funext _
  unfold Replay.onward
  cases r.ending with
  | some e => rfl
  | none => simp only [hkept _ rfl]

/-- **The finds of a product** are the product of the finds, the left ones outside; a replay that
fails is asked in the first round only. -/
theorem finds_product (f : α → β → γ) (t : Trail ε α) (r : Replay ε β) :
    (product f t r).finds =
      (if r.ending.isSome then t.finds.take 1 else t.finds).flatMap fun a => r.finds.map (f a) := by
  induction t generalizing r with
  | done => simp [product]
  | failed e => simp [product]
  | found a rest ih =>
      rw [product_found, Trail.finds_append]
      cases he : r.ending with
      | some e => simp [Replay.onward, he]
      | none =>
          by_cases hr : r.finds = []
          · simp [Replay.onward, he, hr]
          · simp [Replay.onward, he, hr, ih]

/-- **How a product ends**: as its left side does if that has no finds, else as the replay does, and
only behind a replay with finds as the left side. -/
theorem ending_product (f : α → β → γ) (t : Trail ε α) (r : Replay ε β) :
    (product f t r).ending =
      if t.finds = [] then t.ending
      else r.ending.or (if r.finds = [] then none else t.ending) := by
  induction t generalizing r with
  | done => rfl
  | failed e => rfl
  | found a rest ih =>
      rw [product_found, Trail.ending_append, Trail.ending_ofList, Option.none_or]
      cases he : r.ending with
      | some e => simp [Replay.onward, he]
      | none =>
          by_cases hr : r.finds = []
          · simp [Replay.onward, he, hr]
          · by_cases ht : (rest ()).finds = []
            · simp [Replay.onward, he, hr, ih, ht]
            · simp [Replay.onward, he, hr, ih, ht]

end Search

end Bibliograph
