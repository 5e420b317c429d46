import Bibliograph.Entry.Ancestry
import Bibliograph.Search.Bindings
import Bibliograph.Search.Replay
import Bibliograph.Selector.Parse

/-!
# Searching entries with selectors

An expression is searched among candidates: the entry itself at the outset, the parents of an entry
on the right of `>`.  A solution is the candidate that satisfies the expression, its witness, with
the entries captured on the way.  Captures of a branch that fails reach no solution.

Main definitions:

* `Search.Solution`: witness and captures;
* `Search.solve`: the solutions of an expression among candidates, as a trail;
* `Search.solutions`, `Search.reports`: the solutions for one entry, and what is reported of them;
* `Search.Outcome`, `Search.apply`: the first solution for one entry;
* `Search.applyAll`: the entries of a list that match.

Main results:

* `Search.solve_any`, `Search.solve_type`: all candidates, and the candidates of one type;
* `Search.solve_tooFar`: no more than a hundred parent links are followed.
-/

set_option autoImplicit false

namespace Bibliograph.Search

open Selector

/-- A candidate that satisfies an expression, with the captures of the way there. -/
structure Solution where
  witness : Entry
  captured : List (String × Entry)

/-- Why a search fails. -/
inductive Fault where
  | tooFar
  | foreign (f : ForeignPart)
  deriving Repr, DecidableEq

/-- What is said about the fault. -/
def Fault.message : Fault → String
  | tooFar =>
    "selector followed more than " ++ Number.decimal maxGenerations ++ " parent links"
  | foreign f => f.message

/-- The witness of the left solution with the captures of both. -/
def Solution.join (l r : Solution) : Solution :=
  ⟨l.witness, l.captured ++ r.captured⟩

/-- A candidate without captures. -/
def Solution.plain (e : Entry) : Solution :=
  ⟨e, []⟩

/-- The solutions of an expression among candidates that are `hops` parent links away from the
entry in question.

Both sides of a conjunction are searched among the same candidates, so among parents each side may
be satisfied by another one.  A negation is decided for each candidate on its own. -/
def solve (x : Expr) (candidates : List Entry) (hops : Nat) : Trail Fault Solution :=
  if maxGenerations < hops then .failed .tooFar
  else match x with
    | .type t => .ofList ((candidates.filter fun c => c.type = t).map Solution.plain)
    | .any => .ofList (candidates.map Solution.plain)
    | .filter x field => (solve x candidates hops).filter fun s => s.witness.has field
    -- one solution refuses the candidate, and no second one is looked for
    | .not x => .each candidates fun c =>
      match solve x [c] hops with
      | .done => .ofList [Solution.plain c]
      | .failed e => .failed e
      | .found _ _ => .done
    | .or l r => (solve l candidates hops).append fun _ => solve r candidates hops
    | .and l r =>
      product Solution.join (solve l candidates hops)
        (.ofTrail fun _ => solve r candidates hops)
    -- the parents are looked at only when the child has a solution
    | .parent child ancestor => .each candidates fun c =>
      product (fun s a => ⟨c, s.captured ++ a.captured⟩) (solve child [c] hops)
        (.ofTrail fun _ => solve ancestor c.parents (hops + 1))
    | .capture name x => (solve x candidates hops).map fun s =>
      ⟨s.witness, s.captured ++ [(name, s.witness)]⟩
    | .foreign s => .failed (.foreign ⟨s⟩)

theorem solve_tooFar {hops : Nat} (h : maxGenerations < hops) (x : Expr) (cs : List Entry) :
    solve x cs hops = .failed .tooFar := by
  cases x <;> simp [solve, h]

theorem solve_any {hops : Nat} (h : hops ≤ maxGenerations) (cs : List Entry) :
    solve .any cs hops = .ofList (cs.map Solution.plain) := by
  simp [solve, Nat.not_lt.2 h]

theorem solve_type {hops : Nat} (h : hops ≤ maxGenerations) (t : EntryType) (cs : List Entry) :
    solve (.type t) cs hops =
      .ofList ((cs.filter fun c => c.type = t).map Solution.plain) := by
  simp [solve, Nat.not_lt.2 h]

/-- All solutions for one entry. -/
def solutions (x : Expr) (e : Entry) : Trail Fault Solution :=
  solve x [e] 0

/-- What is reported of all solutions for one entry: the witnesses with their bindings. -/
def reports (x : Expr) (e : Entry) : Trail Fault (Entry × Bindings) :=
  (solutions x e).map fun s => (s.witness, .ofPairs s.captured)

/-- The bindings of the first solution for one entry, if there is a solution. -/
def apply (x : Expr) (e : Entry) : Except Fault (Option Bindings) :=
  (solutions x e).first.map fun s => s.map fun s => .ofPairs s.captured

/-- Whether an entry matches. -/
def isMatch (x : Expr) (e : Entry) : Except Fault Bool :=
  (apply x e).map Option.isSome

/-- The entries that match, with their bindings. -/
def applyAll (x : Expr) : List Entry → Except Fault (List (Entry × Bindings))
  | [] => .ok []
  | e :: es => do
    let found ← apply x e
    let others ← applyAll x es
    return match found with
      | some b => (e, b) :: others
      | none => others

/-- The entries that match. -/
def selectAll (x : Expr) (es : List Entry) : Except Fault (List Entry) :=
  (applyAll x es).map fun found => found.map Prod.fst

end Bibliograph.Search
