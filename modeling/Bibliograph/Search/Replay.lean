import Bibliograph.Search.Shared
import Bibliograph.Trail

/-!
# Replays

A replay lets several runs share the finds of one trail.  What one run has found is kept, so that
the trail is asked for each find once, and only when a run has come to its end.

Main definitions:

* `Search.Replay`: the finds that are kept, and the trail behind them;
* `Search.Replay.pull`: the find at a position;
* `Search.Replay.run`: a run from a position on;
* `Search.product`: every find of a trail paired with every find of a replay.

Main results:

* `Search.Replay.finds_of_pull`: asking changes neither what the replay finds in total nor how
  it ends.
-/

set_option autoImplicit false

namespace Bibliograph.Search

variable {ε α β γ : Type}

/-- A trail as a source, which is asked for one find at a time. -/
def askTrail (t : Unit → Trail ε α) : Given ε α (Unit → Trail ε α) :=
  match t () with
  | .done => .nothing fun _ => .done
  | .failed e => .failed e
  | .found a rest => .item a rest

/-- The finds so far, and the suspended trail of the others. -/
abbrev Replay (ε α : Type) := Shared α (Unit → Trail ε α)

namespace Replay

/-- A replay of which nothing has been asked. -/
def ofTrail (t : Unit → Trail ε α) : Replay ε α where
  ahead := t

/-- What a run is told. -/
abbrev Pulled (ε α : Type) := Shared.Pulled ε α (Unit → Trail ε α)

/-- All finds, kept and not. -/
def finds (r : Replay ε α) : List α :=
  r.kept.toList ++ (r.ahead ()).finds

/-- The number of finds from a position on. -/
def remaining (r : Replay ε α) (i : Nat) : Nat :=
  r.finds.length - i

/-- The find at a position, which is at most the number of finds that are kept. -/
def pull (r : Replay ε α) (i : Nat) : Pulled ε α :=
  Shared.pull askTrail r i

theorem pull_eq (r : Replay ε α) (i : Nat) :
    r.pull i = if h : i < r.kept.size then .find r.kept[i] r
      else match r.ahead () with
        | .done => .exhausted { r with ahead := fun _ => .done }
        | .failed e => .failed e
        | .found a rest => .find a { kept := r.kept.push a, ahead := rest } := by
  rw [pull, Shared.pull]
  split
  · rfl
  · rw [askTrail]
    cases r.ahead () <;> rfl

theorem finds_of_pull {r r' : Replay ε α} {i : Nat} {a : α} (h : r.pull i = .find a r') :
    r'.finds = r.finds := by
  rw [pull_eq] at h
  split at h
  · cases h; rfl
  · split at h
    · cases h
    · cases h
    · rename_i b rest hr
      cases h
      simp [finds, hr]

theorem remaining_of_pull {r r' : Replay ε α} {i : Nat} {a : α} (h : r.pull i = .find a r')
    (hi : i ≤ r.kept.size) : r'.remaining (i + 1) < r.remaining i ∧ i + 1 ≤ r'.kept.size := by
  have hf := finds_of_pull h
  rw [pull_eq] at h
  split at h
  · cases h
    simp only [remaining, finds, List.length_append, Array.length_toList]
    omega
  · split at h
    · cases h
    · cases h
    · rename_i b rest hr
      cases h
      simp only [remaining, finds, List.length_append, Array.length_toList, Array.size_push, hr,
        Trail.finds_found, List.length_cons]
      omega

/-- Runs through the finds from a position on, and then goes on with the replay as it is left. -/
def runFrom (f : α → γ) (r : Replay ε α) (i : Nat) (hi : i ≤ r.kept.size)
    (next : Replay ε α → Trail ε γ) : Trail ε γ :=
  match h : r.pull i with
  | .find a r' => .found (f a) fun _ => runFrom f r' (i + 1) (remaining_of_pull h hi).2 next
  | .exhausted r' => next r'
  | .failed e => .failed e
termination_by r.remaining i
decreasing_by exact (remaining_of_pull h hi).1

section Run

variable {r r' : Replay ε α} {i : Nat} {a : α} {e : ε} (f : α → γ) (hi : i ≤ r.kept.size)
  (next : Replay ε α → Trail ε γ)

theorem runFrom_of_find (h : r.pull i = .find a r') :
    r.runFrom f i hi next =
      .found (f a) fun _ => r'.runFrom f (i + 1) (remaining_of_pull h hi).2 next := by
  rw [runFrom]
  split
  · rename_i h'
    cases h.symm.trans h'
    rfl
  · rename_i h'
    cases h.symm.trans h'
  · rename_i h'
    cases h.symm.trans h'

theorem runFrom_of_exhausted (h : r.pull i = .exhausted r') :
    r.runFrom f i hi next = next r' := by
  rw [runFrom]
  split
  · rename_i h'
    cases h.symm.trans h'
  · rename_i h'
    cases h.symm.trans h'
    rfl
  · rename_i h'
    cases h.symm.trans h'

theorem runFrom_of_failed (h : r.pull i = .failed e) : r.runFrom f i hi next = .failed e := by
  rw [runFrom]
  split
  · rename_i h'
    cases h.symm.trans h'
  · rename_i h'
    cases h.symm.trans h'
  · rename_i h'
    cases h.symm.trans h'
    rfl

end Run

/-- Runs through all finds, and then goes on with the replay as it is left. -/
def run (f : α → γ) (r : Replay ε α) (next : Replay ε α → Trail ε γ) : Trail ε γ :=
  r.runFrom f 0 (Nat.zero_le _) next

end Replay

/-- Every find of the trail paired with every find of the replay.  If the replay has no finds at
all, the trail is left after its first find. -/
def product (f : α → β → γ) : Trail ε α → Replay ε β → Trail ε γ
  | .done, _ => .done
  | .failed e, _ => .failed e
  | .found a rest, r =>
    r.run (f a) fun r' => if r'.kept.isEmpty then .done else product f (rest ()) r'

end Bibliograph.Search
