/-!
# Runs

A state is asked one thing after another.  Each time it gives a reply and leaves another state
behind.

Main definitions:

* `runAll`: what was asked with the replies, in order, and the state at the end.

Main results:

* `map_fst_runAll`: there is a reply to everything that was asked;
* `runAll_invariant`: **what every step keeps holds of a run**.
-/

set_option autoImplicit false

namespace Bibliograph

variable {σ ι ρ : Type}

/-- What is asked of a state in turn with the replies, and the state at the end. -/
def runAll (step : σ → ι → ρ × σ) (s : σ) : List ι → List (ι × ρ) × σ
  | [] => ([], s)
  | i :: is =>
    let (reply, s) := step s i
    let (history, s) := runAll step s is
    ((i, reply) :: history, s)

theorem runAll_cons (step : σ → ι → ρ × σ) (s : σ) (i : ι) (is : List ι) :
    runAll step s (i :: is) =
      ((i, (step s i).1) :: (runAll step (step s i).2 is).1, (runAll step (step s i).2 is).2) := rfl

theorem map_fst_runAll (step : σ → ι → ρ × σ) (s : σ) (is : List ι) :
    (runAll step s is).1.map Prod.fst = is := by
  induction is generalizing s with
  | nil => rfl
  | cons i is ih => rw [runAll_cons, List.map_cons, ih]

/-- **What every step keeps holds of a run**, when it holds of the history in front of it. -/
theorem runAll_invariant {step : σ → ι → ρ × σ} {P : List (ι × ρ) → σ → Prop}
    (hstep : ∀ history s i, P history s → P (history ++ [(i, (step s i).1)]) (step s i).2)
    {history : List (ι × ρ)} {s : σ} (h : P history s) (is : List ι) :
    P (history ++ (runAll step s is).1) (runAll step s is).2 := by
  induction is generalizing history s with
  | nil =>
    rw [runAll, List.append_nil]
    exact h
  | cons i is ih =>
    have hrest := ih (hstep history s i h)
    rw [List.append_assoc, List.singleton_append] at hrest
    exact hrest

end Bibliograph
