/-!
# Shared sources

A source gives its items one after another, and each of them once.  To let several runs go through
the same items, what the source has given is kept.  A run asks for the item at its position; the
source is asked for it only if no other run was there before.

Main definitions:

* `Search.Given`: what a source gives when it is asked;
* `Search.Shared`: the items that are kept, and the source behind them;
* `Search.Shared.pull`: the item at a position.

Main results:

* `Search.Shared.pull_of_lt`, `Search.Shared.pull_of_eq`: the source is asked exactly if the position
  is behind all items that are kept.
-/

set_option autoImplicit false

namespace Bibliograph.Search

variable {ε α σ : Type}

/-- What a source gives when it is asked, with the source as it is left. -/
inductive Given (ε α σ : Type) where
  | item (a : α) (rest : σ)
  | nothing (rest : σ)
  | failed (e : ε)

/-- The items that a source has given, and the source as it is left. -/
structure Shared (α σ : Type) where
  kept : Array α := #[]
  ahead : σ

namespace Shared

/-- What a run is told. -/
inductive Pulled (ε α σ : Type) where
  | find (a : α) (r : Shared α σ)
  | exhausted (r : Shared α σ)
  | failed (e : ε)

/-- The item at a position, which is at most the number of items that are kept. -/
def pull (ask : σ → Given ε α σ) (r : Shared α σ) (i : Nat) : Pulled ε α σ :=
  if h : i < r.kept.size then .find r.kept[i] r
  else match ask r.ahead with
    | .item a rest => .find a { kept := r.kept.push a, ahead := rest }
    | .nothing rest => .exhausted { r with ahead := rest }
    | .failed e => .failed e

variable {ask : σ → Given ε α σ} {r : Shared α σ} {i : Nat}

theorem pull_of_lt (h : i < r.kept.size) : r.pull ask i = .find r.kept[i] r := by
  rw [pull, dif_pos h]

theorem pull_of_eq (h : i = r.kept.size) :
    r.pull ask i = match ask r.ahead with
      | .item a rest => .find a { kept := r.kept.push a, ahead := rest }
      | .nothing rest => .exhausted { r with ahead := rest }
      | .failed e => .failed e := by
  rw [pull, dif_neg (by omega)]

end Shared

end Bibliograph.Search
