/-!
# Sequences of steps that may fail

Main results:

* `bind_eq_ok_iff`, `map_eq_ok_iff`, `mapError_eq_ok_iff`: when a sequence of steps has a result;
* `exists_of_mem_mapM`: where the parts of a list of results come from;
* `foldlM_invariant`: what every step keeps holds of the result.
-/

set_option autoImplicit false

namespace Bibliograph

variable {ε ε' α β γ : Type}

/-- A sequence has a result exactly if both of its steps have one. -/
theorem bind_eq_ok_iff {x : Except ε α} {f : α → Except ε β} {b : β} :
    (x >>= f) = .ok b ↔ ∃ a, x = .ok a ∧ f a = .ok b := by
  cases x with
  | error e =>
      change Except.error e = Except.ok b ↔ _
      simp
  | ok a =>
      change f a = Except.ok b ↔ _
      simp

/-- Two steps that are put together by a function. -/
theorem bind_bind_eq_ok_iff {x : Except ε α} {y : Except ε β} {f : α → β → γ} {c : γ} :
    (do return f (← x) (← y)) = (.ok c : Except ε γ) ↔
      ∃ a b, x = .ok a ∧ y = .ok b ∧ f a b = c := by
  simp only [bind_eq_ok_iff]
  constructor
  · rintro ⟨a, hx, b, hy, h⟩
    cases h
    exact ⟨a, b, hx, hy, rfl⟩
  · rintro ⟨a, b, hx, hy, rfl⟩
    exact ⟨a, hx, b, hy, rfl⟩

theorem map_eq_ok_iff {x : Except ε α} {f : α → β} {b : β} :
    x.map f = .ok b ↔ ∃ a, x = .ok a ∧ f a = b := by
  cases x with
  | error e => simp [Except.map]
  | ok a => simp [Except.map]

theorem mapError_eq_ok_iff {x : Except ε α} {f : ε → ε'} {a : α} :
    x.mapError f = .ok a ↔ x = .ok a := by
  cases x with
  | error e =>
      change Except.error (f e) = Except.ok a ↔ _
      simp
  | ok b =>
      change Except.ok b = Except.ok a ↔ _
      simp

/-- Every part of a list of results is the result for some element. -/
theorem exists_of_mem_mapM {f : α → Except ε β} {as : List α} {bs : List β}
    (h : as.mapM f = .ok bs) {b : β} (hb : b ∈ bs) : ∃ a ∈ as, f a = .ok b := by
  induction as generalizing bs with
  | nil =>
      cases h
      cases hb
  | cons a as ih =>
      rw [List.mapM_cons, bind_eq_ok_iff] at h
      obtain ⟨c, hc, h⟩ := h
      rw [bind_eq_ok_iff] at h
      obtain ⟨cs, hcs, h⟩ := h
      cases h
      rcases List.mem_cons.1 hb with rfl | hb
      · exact ⟨a, List.mem_cons_self .., hc⟩
      · obtain ⟨a', ha', h⟩ := ih hcs hb
        exact ⟨a', List.mem_cons_of_mem _ ha', h⟩

/-- What every step keeps holds of the result. -/
theorem foldlM_invariant {f : β → α → Except ε β} {P : β → Prop} {as : List α} {b c : β}
    (hb : P b) (hf : ∀ a ∈ as, ∀ b, P b → ∀ c, f b a = .ok c → P c)
    (h : as.foldlM f b = .ok c) : P c := by
  induction as generalizing b with
  | nil =>
      cases h
      exact hb
  | cons a as ih =>
      rw [List.foldlM_cons] at h
      obtain ⟨b', hb', h⟩ := bind_eq_ok_iff.1 h
      have hP : P b' := hf a (List.mem_cons_self ..) b hb b' hb'
      exact ih hP (fun a ha => hf a (List.mem_cons_of_mem _ ha)) h

end Bibliograph
