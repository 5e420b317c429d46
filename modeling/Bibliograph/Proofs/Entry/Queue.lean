import Bibliograph.Proofs.Entry.Ancestry

/-!
# The ancestors from a queue

The ancestors of an entry can be visited with a queue instead of generations.  The queue holds
entries with their distances; the entry at its front is visited, unless it was visited before, and
its parents go to the end, one parent link further away.  So a generation is used up before the next
one begins, and the visit is the same.

What gets smaller with every step is the number of ways that lead upwards from the entries of the
queue: the entry at the front takes with it the way that ends there, also where its parents stay.

Main definitions:

* `Entry.ways`, `Entry.pendingWays`: the ways upwards from an entry and from a queue;
* `Entry.queued`: the entries of one generation in a queue;
* `Entry.visit`: the visit from a queue.

Main results:

* `Entry.visit_generation`: **the visit uses up one generation and puts the next one together**;
* `Entry.visit_eq_generations`: from a queue that holds one generation the visit goes on by
  generations;
* `Entry.ancestors_eq_visit`: **the ancestors are those that are visited from a queue**.
-/

set_option autoImplicit false

namespace Bibliograph.Entry

/-! ### The queue -/

mutual

/-- The number of ways from an entry upwards, the one that ends at the entry itself included. -/
def ways : Entry → Nat
  | ⟨_, _, _, _, parents⟩ => waysFrom parents + 1

/-- The number of ways upwards from several entries. -/
def waysFrom : List Entry → Nat
  | [] => 0
  | e :: es => ways e + waysFrom es

end

/-- The number of ways upwards from the entries of a queue. -/
def pendingWays (queue : List (Entry × Nat)) : Nat :=
  waysFrom (queue.map Prod.fst)

/-- Entries with their distance, as they stand in a queue. -/
def queued (depth : Nat) (es : List Entry) : List (Entry × Nat) :=
  es.map fun e => (e, depth)

theorem queued_append (depth : Nat) (ds es : List Entry) :
    queued depth (ds ++ es) = queued depth ds ++ queued depth es :=
  List.map_append

theorem ways_eq (e : Entry) : e.ways = waysFrom e.parents + 1 := by
  cases e
  rw [ways]

theorem waysFrom_append (ds es : List Entry) :
    waysFrom (ds ++ es) = waysFrom ds + waysFrom es := by
  induction ds with
  | nil => simp [waysFrom]
  | cons d ds ih =>
      rw [List.cons_append, waysFrom, waysFrom, ih]
      omega

theorem pendingWays_cons (e : Entry) (depth : Nat) (queue : List (Entry × Nat)) :
    pendingWays ((e, depth) :: queue) = waysFrom e.parents + 1 + pendingWays queue := by
  rw [pendingWays, List.map_cons, waysFrom, ways_eq]
  rfl

/-- With the parents at the end in the place of its front a queue has fewer ways. -/
theorem pendingWays_parents_lt (e : Entry) (depth depth' : Nat) (queue : List (Entry × Nat)) :
    pendingWays (queue ++ queued depth' e.parents) < pendingWays ((e, depth) :: queue) := by
  have hparents : (queued depth' e.parents).map Prod.fst = e.parents := by
    simp [queued, Function.comp_def]
  have happend : pendingWays (queue ++ queued depth' e.parents) =
      pendingWays queue + waysFrom e.parents := by
    rw [pendingWays, List.map_append, hparents, waysFrom_append]
    rfl
  rw [happend, pendingWays_cons]
  omega

/-- Without its front it has fewer ways as well. -/
theorem pendingWays_lt (e : Entry) (depth : Nat) (queue : List (Entry × Nat)) :
    pendingWays queue < pendingWays ((e, depth) :: queue) := by
  rw [pendingWays_cons]
  omega

/-- The visit from a queue of entries with their distances from the entry with the key. -/
def visit (key : String) (seen : List Identity) : List (Entry × Nat) → Trail NestingFault Entry
  | [] => .done
  | (e, depth) :: queue =>
    -- the distance is looked at first, so what was visited before may be too far away here
    if maxGenerations < depth then .failed ⟨key⟩
    else if e.id ∈ seen then visit key seen queue
    else .found e fun _ => visit key (e.id :: seen) (queue ++ queued (depth + 1) e.parents)
termination_by queue => pendingWays queue
decreasing_by
  · exact pendingWays_lt e depth queue
  · exact pendingWays_parents_lt e depth (depth + 1) queue

/-! ### Generations in the queue -/

/-- **The visit uses up one generation and puts the next one together** behind what is in the queue
of it already. -/
theorem visit_generation {depth : Nat} (hdepth : depth ≤ maxGenerations) (key : String)
    (seen : List Identity) (generation next : List Entry) :
    visit key seen (queued depth generation ++ queued (depth + 1) next) =
      (Trail.ofList (fresh seen generation)).append fun _ =>
        visit key (((fresh seen generation).map Entry.id).reverse ++ seen)
          (queued (depth + 1) (next ++ (fresh seen generation).flatMap Entry.parents)) := by
  induction generation generalizing seen next with
  | nil => simp [queued, fresh, Trail.ofList, Trail.append]
  | cons e generation ih =>
      have hfront : queued depth (e :: generation) ++ queued (depth + 1) next =
          (e, depth) :: (queued depth generation ++ queued (depth + 1) next) := rfl
      rw [hfront, visit, if_neg (Nat.not_lt.2 hdepth)]
      by_cases he : e.id ∈ seen
      · rw [if_pos he, ih, fresh, if_pos he]
      · have hqueue : queued depth generation ++ queued (depth + 1) next ++
            queued (depth + 1) e.parents =
              queued depth generation ++ queued (depth + 1) (next ++ e.parents) := by
          rw [queued_append, List.append_assoc]
        rw [if_neg he, hqueue, ih, fresh, if_neg he, Trail.ofList, Trail.append]
        simp

/-- From a queue that holds one generation the visit goes on by generations, of which so many are
left that the last one is the hundredth.  What was seen may be noted in another order. -/
theorem visit_eq_generations {levels depth : Nat} (hdepth : depth + levels = maxGenerations + 1)
    (key : String) {seen seen' : List Identity} (hseen : ∀ i, i ∈ seen ↔ i ∈ seen')
    (generation : List Entry) :
    visit key seen (queued depth generation) = generations key levels seen' generation := by
  induction levels generalizing depth seen seen' generation with
  | zero =>
      cases generation with
      | nil => rw [generations, queued, List.map_nil, visit]
      | cons e generation =>
          have hfront : queued depth (e :: generation) = (e, depth) :: queued depth generation :=
            rfl
          rw [generations, hfront, visit, if_pos (by omega)]
  | succ levels ih =>
      cases generation with
      | nil => rw [generations, queued, List.map_nil, visit]
      | cons e generation =>
          have hnext := visit_generation (by omega : depth ≤ maxGenerations) key seen
            (e :: generation) []
          rw [show queued (depth + 1) [] = [] from rfl, List.append_nil, List.nil_append] at hnext
          have hmore : ∀ i, i ∈ ((fresh seen' (e :: generation)).map Entry.id).reverse ++ seen ↔
              i ∈ (fresh seen' (e :: generation)).map Entry.id ++ seen' := by
            intro i
            rw [List.mem_append, List.mem_append, List.mem_reverse, hseen]
          rw [hnext, fresh_congr hseen, generations]
          congr 1
          funext _
          exact ih (by omega) hmore _

/-- **The ancestors are those that are visited from a queue** that holds the parents at first, and
the visit ends in the same way. -/
theorem ancestors_eq_visit (e : Entry) : e.ancestors = visit e.key [] (queued 1 e.parents) := by
  rw [ancestors]
  exact (visit_eq_generations (by decide) e.key (fun _ => Iff.rfl) e.parents).symm

end Bibliograph.Entry
