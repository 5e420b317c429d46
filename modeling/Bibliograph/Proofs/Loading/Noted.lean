import Bibliograph.Loading.Notice
import Mathlib.Data.List.Forall2

/-!
# Computations with notices

Main definitions:

* `Loading.Noted.mapFault`: renames the reason of a failure, and keeps the notices.

Main results:

* `Loading.Noted.result_bind_eq_ok_iff`, `Loading.Noted.result_bind_eq_error_iff`: what the result
  of a sequence shows about its parts;
* `Loading.Noted.result_mapM_eq_ok_iff`: a computation for each element of a list has a result
  exactly if each has one;
* `Loading.Noted.exists_of_result_mapM_eq_error`: it fails only where one of them fails;
* `Loading.Noted.mapFault_mapM`: reasons may be renamed before or after.
-/

set_option autoImplicit false

namespace Bibliograph.Loading.Noted

variable {ε ε' α β : Type}

theorem ext {x y : Noted ε α} (hn : x.notices = y.notices) (hr : x.result = y.result) : x = y := by
  obtain ⟨nx, rx⟩ := x
  obtain ⟨ny, ry⟩ := y
  obtain rfl : nx = ny := hn
  obtain rfl : rx = ry := hr
  rfl

@[simp] theorem notices_pure (a : α) : (pure a : Noted ε α).notices = [] := rfl

instance : LawfulMonad (Noted ε) :=
  LawfulMonad.mk' (Noted ε)
    (by
      intro α x
      change x >>= (fun a => pure (id a)) = x
      refine ext ?_ ?_
      · rw [notices_bind]
        cases x.result <;> simp
      · rw [result_bind]
        cases x.result <;> rfl)
    (by
      intro α β a f
      refine ext ?_ ?_
      · rw [notices_bind]
        rfl
      · rw [result_bind]
        rfl)
    (by
      intro α β γ x f g
      refine ext ?_ ?_
      · simp only [notices_bind, result_bind]
        cases x.result with
        | error e => simp [Except.bind]
        | ok a => simp [Except.bind]
      · simp only [result_bind]
        cases x.result with
        | error e => rfl
        | ok a => simp [Except.bind])

/-! ### Results of sequences -/

theorem result_bind_eq_ok_iff {x : Noted ε α} {f : α → Noted ε β} {b : β} :
    (x >>= f).result = .ok b ↔ ∃ a, x.result = .ok a ∧ (f a).result = .ok b := by
  rw [result_bind]
  cases x.result <;> simp [Except.bind]

/-- A sequence fails where one of its parts fails. -/
theorem result_bind_eq_error_iff {x : Noted ε α} {f : α → Noted ε β} {e : ε} :
    (x >>= f).result = .error e ↔
      x.result = .error e ∨ ∃ a, x.result = .ok a ∧ (f a).result = .error e := by
  rw [result_bind]
  cases x.result <;> simp [Except.bind]

/-- A computation for each element of a list has a result exactly if each has one. -/
theorem result_mapM_eq_ok_iff {f : α → Noted ε β} {as : List α} {bs : List β} :
    (as.mapM f).result = .ok bs ↔ List.Forall₂ (fun a b => (f a).result = .ok b) as bs := by
  induction as generalizing bs with
  | nil => simp [eq_comm]
  | cons a as ih =>
      rw [List.mapM_cons, result_bind_eq_ok_iff, List.forall₂_cons_left_iff]
      constructor
      · rintro ⟨b, hb, h⟩
        rw [result_bind_eq_ok_iff] at h
        obtain ⟨cs, hcs, h⟩ := h
        cases h
        exact ⟨b, cs, hb, ih.1 hcs, rfl⟩
      · rintro ⟨b, cs, hb, hcs, rfl⟩
        refine ⟨b, hb, ?_⟩
        rw [result_bind_eq_ok_iff]
        exact ⟨cs, ih.2 hcs, rfl⟩

theorem exists_of_result_mapM_eq_error {f : α → Noted ε β} {as : List α} {e : ε}
    (h : (as.mapM f).result = .error e) : ∃ a ∈ as, (f a).result = .error e := by
  induction as with
  | nil => simp at h
  | cons a as ih =>
      rw [List.mapM_cons, result_bind_eq_error_iff] at h
      rcases h with h | ⟨b, -, h⟩
      · exact ⟨a, List.mem_cons_self .., h⟩
      · rw [result_bind_eq_error_iff] at h
        rcases h with h | ⟨cs, -, h⟩
        · obtain ⟨a', ha', h⟩ := ih h
          exact ⟨a', List.mem_cons_of_mem _ ha', h⟩
        · simp at h

/-! ### Other reasons of failure -/

/-- The computation with its reason of failure renamed. -/
def mapFault (g : ε → ε') (x : Noted ε α) : Noted ε' α :=
  ⟨x.notices, x.result.mapError g⟩

theorem mapFault_bind (g : ε → ε') (x : Noted ε α) (f : α → Noted ε β) :
    (x >>= f).mapFault g = x.mapFault g >>= fun a => (f a).mapFault g := by
  refine ext ?_ ?_
  · simp only [mapFault, notices_bind]
    cases x.result <;> rfl
  · simp only [mapFault, result_bind]
    cases x.result <;> rfl

/-- Reasons may be renamed before or after. -/
theorem mapFault_mapM (g : ε → ε') (f : α → Noted ε β) (as : List α) :
    (as.mapM f).mapFault g = as.mapM fun a => (f a).mapFault g := by
  induction as with
  | nil => rfl
  | cons a as ih =>
      rw [List.mapM_cons, List.mapM_cons, mapFault_bind]
      congr 1
      funext b
      rw [mapFault_bind, ih]
      rfl

end Bibliograph.Loading.Noted
