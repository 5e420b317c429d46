import Bibliograph.Proofs.Search.Product
import Bibliograph.Run
import Mathlib.Logic.Function.Basic

/-!
# Iterations over a shared source

Several iterations go through one shared source.  They are asked for their next items in any order;
one may be left for good midway, and another one may start when the others are far ahead or at their
end.  All of them see the buffer and the source that the others have moved on, yet each is told what
it would be told if it had the source for itself.

What carries the induction is where the source stands: what is kept are the items that it has given,
no iteration is behind them, and one that has ended has met the end of the source.

Main definitions:

* `Search.Gives`: a source gives some items in turn;
* `Search.Steady`: a source that does not fail, and is at its end once it has given nothing;
* `Search.itemAt?`: the items of a source that is asked for all of them in turn;
* `Search.Iterations`: a shared source with its iterations;
* `Search.Iterations.next`, `Search.Iterations.run`: one iteration is asked for its next item, and
  several are in turn.

Main results:

* `Search.Gives.itemAt?_eq`: what a source has given are its first items;
* `Search.Standing.next`: one step keeps where everything stands, and gives the right item;
* `Search.told_run`: so does a run;
* `Search.each_iteration_gives_all_items`: **each iteration is told the items from the first one on**,
  and the source is asked for each of them once, when the first iteration gets there;
* `Search.steady_askTrail`, `Search.itemAt?_askTrail`: a trail that does not fail is such a source,
  and its items are its finds;
* `Search.Replay.runFrom_of_next`: a run over a replay is an iteration.
-/

set_option autoImplicit false

namespace Bibliograph.Search

variable {ε α σ : Type}

/-! ### Sources -/

/-- Asked some times, a source gives the items and is then left in another state. -/
inductive Gives (ask : σ → Given ε α σ) (t : σ) : List α → σ → Prop
  | start : Gives ask t [] t
  | item {as : List α} {a : α} {u v : σ} (h : Gives ask t as u) (hu : ask u = .item a v) :
      Gives ask t (as ++ [a]) v
  | nothing {as : List α} {u v : σ} (h : Gives ask t as u) (hu : ask u = .nothing v) :
      Gives ask t as v

/-- A source that does not fail, however often it is asked, and that goes on giving nothing once it
has given nothing. -/
structure Steady (ask : σ → Given ε α σ) (t : σ) : Prop where
  ne_failed : ∀ {as : List α} {u : σ}, Gives ask t as u → ∀ e, ask u ≠ .failed e
  stays : ∀ {as : List α} {u v : σ}, Gives ask t as u → ask u = .nothing v →
    ∃ w, ask v = .nothing w

/-- The item with a number among those that a source gives when it is asked for all of them in
turn. -/
def itemAt? (ask : σ → Given ε α σ) : Nat → σ → Option α
  | 0, t => match ask t with
    | .item a _ => some a
    | _ => none
  | n + 1, t => match ask t with
    | .item _ rest => itemAt? ask n rest
    | _ => none

section Source

variable {ask : σ → Given ε α σ} {t : σ}

theorem itemAt?_of_nothing {u : σ} (h : ask t = .nothing u) (n : Nat) : itemAt? ask n t = none := by
  cases n <;> rw [itemAt?, h]

/-- What a source has given are its first items, and the others come from where it is left. -/
theorem Gives.itemAt?_eq (hsteady : Steady ask t) {as : List α} {u : σ} (h : Gives ask t as u)
    (n : Nat) : itemAt? ask n t = as[n]?.or (itemAt? ask (n - as.length) u) := by
  induction h generalizing n with
  | start => rfl
  | @item as a u v h hu ih =>
      rw [ih]
      rcases Nat.lt_trichotomy n as.length with hn | rfl | hn
      · simp [List.getElem?_append_left hn, hn]
      · simp [itemAt?, hu]
      · obtain ⟨m, rfl⟩ := Nat.exists_eq_add_of_lt hn
        have hlater : as.length + m + 1 - as.length = m + 1 := by omega
        have hrest : as.length + m + 1 - (as ++ [a]).length = m := by simp
        rw [hlater, hrest, List.getElem?_eq_none (by omega), List.getElem?_eq_none (by simp), itemAt?,
          hu]
  | @nothing as u v h hu ih =>
      obtain ⟨w, hw⟩ := hsteady.stays h hu
      rw [ih, itemAt?_of_nothing hu, itemAt?_of_nothing hw]

end Source

/-! ### Iterations -/

/-- Where an iteration stands: in front of the item with a number, or at its end. -/
inductive Cursor where
  | before (i : Nat)
  | ended
  deriving Repr, DecidableEq

/-- What an iteration is told when it is asked for its next item. -/
inductive Reply (ε α : Type) where
  | item (a : α)
  | over
  | failed (e : ε)
  deriving Repr, DecidableEq

/-- The reply with the item, if there is one. -/
def Reply.ofItem? : Option α → Reply ε α
  | some a => .item a
  | none => .over

/-- A shared source with its iterations, which are told apart by numbers. -/
structure Iterations (α σ : Type) where
  shared : Shared α σ
  cursor : Nat → Cursor

namespace Iterations

/-- All iterations in front of a source of which nothing has been asked. -/
def start (t : σ) : Iterations α σ where
  shared := { ahead := t }
  cursor _ := .before 0

/-- An iteration is asked for its next item. -/
def next (ask : σ → Given ε α σ) (s : Iterations α σ) (k : Nat) : Reply ε α × Iterations α σ :=
  match s.cursor k with
  | .ended => (.over, s)
  | .before i =>
    match s.shared.pull ask i with
    | .find a r => (.item a, ⟨r, Function.update s.cursor k (.before (i + 1))⟩)
    | .exhausted r => (.over, ⟨r, Function.update s.cursor k .ended⟩)
    | .failed e => (.failed e, { s with cursor := Function.update s.cursor k .ended })

/-- Iterations are asked in turn; the replies with the iterations that they are for. -/
def run (ask : σ → Given ε α σ) (s : Iterations α σ) (ks : List Nat) :
    List (Nat × Reply ε α) × Iterations α σ :=
  runAll (next ask) s ks

end Iterations

/-- The replies for one iteration, in order. -/
def repliesTo (k : Nat) (replies : List (Nat × Reply ε α)) : List (Reply ε α) :=
  replies.filterMap fun p => if p.1 = k then some p.2 else none

theorem repliesTo_snoc_self (k : Nat) (replies : List (Nat × Reply ε α)) (reply : Reply ε α) :
    repliesTo k (replies ++ [(k, reply)]) = repliesTo k replies ++ [reply] := by
  simp [repliesTo]

theorem repliesTo_snoc_of_ne {j k : Nat} (h : j ≠ k) (replies : List (Nat × Reply ε α))
    (reply : Reply ε α) : repliesTo k (replies ++ [(j, reply)]) = repliesTo k replies := by
  simp [repliesTo, h]

/-! ### Where everything stands -/

/-- Where an iteration stands that was asked `n` times: it was told as many of the items that are
kept, or it was told all of them and the source has nothing more. -/
def Cursor.Stands (ask : σ → Given ε α σ) (r : Shared α σ) (n : Nat) : Cursor → Prop
  | before i => i = n ∧ n ≤ r.kept.size
  | ended => r.kept.size < n ∧ ∃ u, ask r.ahead = .nothing u

/-- Where a source and its iterations stand after some of them were asked in turn, each of them as
often as its number is in the list. -/
structure Standing (ask : σ → Given ε α σ) (t : σ) (past : List Nat) (s : Iterations α σ) :
    Prop where
  gives : Gives ask t s.shared.kept.toList s.shared.ahead
  stands : ∀ k, (s.cursor k).Stands ask s.shared (past.count k)
  asked : ∀ n < s.shared.kept.size, ∃ k, n < past.count k

section Standing

variable {ask : σ → Given ε α σ} {t : σ} {past : List Nat} {s : Iterations α σ}

theorem Standing.start (ask : σ → Given ε α σ) (t : σ) :
    Standing ask t [] (Iterations.start t) where
  gives := .start
  stands _ := ⟨rfl, Nat.le_refl 0⟩
  asked _ hn := absurd hn (Nat.not_lt_zero _)

theorem Standing.itemAt?_of_lt (h : Standing ask t past s) (hsteady : Steady ask t) {n : Nat}
    (hn : n < s.shared.kept.size) : itemAt? ask n t = some s.shared.kept[n] := by
  rw [h.gives.itemAt?_eq hsteady, Array.getElem?_toList, Array.getElem?_eq_getElem hn,
    Option.some_or]

/-- Behind the items that are kept come those that the source gives. -/
theorem Standing.itemAt?_of_le (h : Standing ask t past s) (hsteady : Steady ask t) {n : Nat}
    (hn : s.shared.kept.size ≤ n) :
    itemAt? ask n t = itemAt? ask (n - s.shared.kept.size) s.shared.ahead := by
  rw [h.gives.itemAt?_eq hsteady, List.getElem?_eq_none (by simpa using hn), Option.none_or,
    Array.length_toList]

/-- One iteration has moved on, by an item that is kept, by one that the source gave just now, or to
its end. -/
theorem Standing.move (h : Standing ask t past s) {r : Shared α σ} {c : Cursor} {k : Nat}
    (hgives : Gives ask t r.kept.toList r.ahead) (hgrown : s.shared.kept.size ≤ r.kept.size)
    (hasked : r.kept.size ≤ max s.shared.kept.size (past.count k + 1))
    (hended : (∃ u, ask s.shared.ahead = .nothing u) →
      r.kept.size = s.shared.kept.size ∧ ∃ u, ask r.ahead = .nothing u)
    (hc : c.Stands ask r (past.count k + 1)) :
    Standing ask t (past ++ [k]) ⟨r, Function.update s.cursor k c⟩ := by
  have hself : (past ++ [k]).count k = past.count k + 1 := by simp
  refine ⟨hgives, fun j => ?_, fun n hn => ?_⟩
  · change (Function.update s.cursor k c j).Stands ask r ((past ++ [k]).count j)
    by_cases hj : j = k
    · subst hj
      rw [hself, Function.update_self]
      exact hc
    · have hother : (past ++ [k]).count j = past.count j := by simp [Ne.symm hj]
      have hstands := h.stands j
      rw [hother, Function.update_of_ne hj]
      cases hcursor : s.cursor j with
      | before i =>
          rw [hcursor] at hstands
          exact ⟨hstands.1, Nat.le_trans hstands.2 hgrown⟩
      | ended =>
          rw [hcursor] at hstands
          obtain ⟨hsize, hnothing⟩ := hended hstands.2
          exact ⟨hsize ▸ hstands.1, hnothing⟩
  · by_cases hkept : n < s.shared.kept.size
    · obtain ⟨j, hj⟩ := h.asked n hkept
      exact ⟨j, Nat.lt_of_lt_of_le hj ((List.sublist_append_left past [k]).count_le j)⟩
    · refine ⟨k, ?_⟩
      change n < r.kept.size at hn
      rw [hself]
      omega

/-- The items that are kept are those that exist and that some iteration has asked for. -/
theorem Standing.lt_size_iff (h : Standing ask t past s) (hsteady : Steady ask t) (n : Nat) :
    n < s.shared.kept.size ↔ (∃ a, itemAt? ask n t = some a) ∧ ∃ k, n < past.count k := by
  constructor
  · exact fun hn => ⟨⟨_, h.itemAt?_of_lt hsteady hn⟩, h.asked n hn⟩
  · rintro ⟨⟨a, ha⟩, k, hk⟩
    by_contra hbehind
    have hstands := h.stands k
    cases hcursor : s.cursor k with
    | before i =>
        rw [hcursor] at hstands
        exact hbehind (Nat.lt_of_lt_of_le hk hstands.2)
    | ended =>
        rw [hcursor] at hstands
        obtain ⟨-, u, hnothing⟩ := hstands
        rw [h.itemAt?_of_le hsteady (Nat.not_lt.1 hbehind), itemAt?_of_nothing hnothing] at ha
        cases ha

/-- **One step keeps where everything stands**, and the iteration is told the item with the number
of times that it was asked before. -/
theorem Standing.next (h : Standing ask t past s) (hsteady : Steady ask t) (k : Nat) :
    (s.next ask k).1 = .ofItem? (itemAt? ask (past.count k) t) ∧
      Standing ask t (past ++ [k]) (s.next ask k).2 := by
  have hstands := h.stands k
  cases hcursor : s.cursor k with
  | ended =>
      rw [hcursor] at hstands
      obtain ⟨hbehind, u, hnothing⟩ := hstands
      have hnext : s.next ask k = (.over, s) := by rw [Iterations.next, hcursor]
      have hsame : s = ⟨s.shared, Function.update s.cursor k .ended⟩ := by
        rw [← hcursor, Function.update_eq_self]
      rw [hnext, h.itemAt?_of_le hsteady (Nat.le_of_lt hbehind), itemAt?_of_nothing hnothing]
      refine ⟨rfl, ?_⟩
      rw [hsame]
      exact h.move h.gives (Nat.le_refl _) (Nat.le_max_left ..) (fun hu => ⟨rfl, hu⟩)
        ⟨Nat.lt_succ_of_lt hbehind, u, hnothing⟩
  | before i =>
      rw [hcursor] at hstands
      obtain ⟨rfl, hle⟩ := hstands
      -- what another iteration was given is kept; only behind it the source is asked
      rcases Nat.lt_or_eq_of_le hle with hlt | heq
      · have hnext : s.next ask k = (.item s.shared.kept[past.count k],
            ⟨s.shared, Function.update s.cursor k (.before (past.count k + 1))⟩) := by
          rw [Iterations.next, hcursor]
          simp only [Shared.pull_of_lt hlt]
        rw [hnext, h.itemAt?_of_lt hsteady hlt]
        exact ⟨rfl, h.move h.gives (Nat.le_refl _) (Nat.le_max_left ..) (fun hu => ⟨rfl, hu⟩)
          ⟨rfl, hlt⟩⟩
      · rw [h.itemAt?_of_le hsteady (Nat.le_of_eq heq.symm), heq, Nat.sub_self, itemAt?]
        unfold Iterations.next
        simp only [hcursor, Shared.pull_of_eq heq]
        cases hgiven : ask s.shared.ahead with
        | failed e => exact absurd hgiven (hsteady.ne_failed h.gives e)
        | item a rest =>
            refine ⟨rfl, h.move ?_ ?_ ?_ ?_ ?_⟩
            · rw [Array.toList_push]
              exact h.gives.item hgiven
            · rw [Array.size_push]
              exact Nat.le_succ _
            · rw [Array.size_push, heq]
              exact Nat.le_max_right ..
            · rintro ⟨u, hu⟩
              rw [hgiven] at hu
              cases hu
            · have hsize : (s.shared.kept.push a).size = s.shared.kept.size + 1 := Array.size_push ..
              exact ⟨rfl, Nat.le_of_eq (by rw [hsize, heq])⟩
        | nothing rest =>
            have hstays := hsteady.stays h.gives hgiven
            exact ⟨rfl, h.move (h.gives.nothing hgiven) (Nat.le_refl _) (Nat.le_max_left ..)
              (fun _ => ⟨rfl, hstays⟩) ⟨by rw [heq]; exact Nat.lt_succ_self _, hstays⟩⟩

/-- What the iterations were told: the items from the first one on, with the source and the
iterations where they stand after that. -/
structure Told (ask : σ → Given ε α σ) (t : σ) (replies : List (Nat × Reply ε α))
    (s : Iterations α σ) : Prop where
  standing : Standing ask t (replies.map Prod.fst) s
  items : ∀ k, repliesTo k replies =
    (List.range ((replies.map Prod.fst).count k)).map fun n => .ofItem? (itemAt? ask n t)

theorem Told.start (ask : σ → Given ε α σ) (t : σ) : Told ask t [] (Iterations.start t) where
  standing := .start ask t
  items _ := rfl

theorem Told.next {replies : List (Nat × Reply ε α)} (h : Told ask t replies s)
    (hsteady : Steady ask t) (k : Nat) :
    Told ask t (replies ++ [(k, (s.next ask k).1)]) (s.next ask k).2 := by
  obtain ⟨hreply, hstanding⟩ := h.standing.next hsteady k
  refine ⟨by rw [List.map_append]; exact hstanding, fun j => ?_⟩
  rw [List.map_append, List.count_append]
  by_cases hj : k = j
  · subst hj
    have hself : ([(k, (s.next ask k).1)].map Prod.fst).count k = 1 := List.count_singleton_self ..
    rw [repliesTo_snoc_self, h.items, hself, List.range_succ, List.map_append, hreply]
    rfl
  · have hother : ([(k, (s.next ask k).1)].map Prod.fst).count j = 0 :=
      List.count_eq_zero.2 (by simpa using Ne.symm hj)
    rw [repliesTo_snoc_of_ne hj, h.items, hother, Nat.add_zero]

/-- **A run keeps where everything stands**, and every iteration is told the items from the first
one on. -/
theorem told_run (hsteady : Steady ask t) (ks : List Nat) :
    Told ask t ((Iterations.start t).run ask ks).1 ((Iterations.start t).run ask ks).2 :=
  runAll_invariant (P := fun replies s => Told ask t replies s)
    (fun _ _ k h => h.next hsteady k) (.start ask t) ks

end Standing

/-- **Each iteration is told the items from the first one on.**  However iterations over a source
that does not fail are asked in turn, each is told the items of the source in order, one for each
time that it is asked, and that it is over as soon as there are no more.  The source is asked for
each item once: what it has given are its first items, each of them one time, and an item is among
them exactly if some iteration has asked for it. -/
theorem each_iteration_gives_all_items {ask : σ → Given ε α σ} {t : σ} (hsteady : Steady ask t)
    (ks : List Nat) :
    let (replies, s) := (Iterations.start t).run ask ks
    (∀ k, repliesTo k replies =
      (List.range (ks.count k)).map fun n => .ofItem? (itemAt? ask n t)) ∧
    Gives ask t s.shared.kept.toList s.shared.ahead ∧
    ∀ n, n < s.shared.kept.size ↔ (∃ a, itemAt? ask n t = some a) ∧ ∃ k, n < ks.count k := by
  obtain ⟨hstanding, hitems⟩ := told_run hsteady ks
  have hasked : ((Iterations.start t).run ask ks).1.map Prod.fst = ks :=
    map_fst_runAll (Iterations.next ask) (Iterations.start t) ks
  rw [hasked] at hstanding hitems
  exact ⟨hitems, hstanding.gives, hstanding.lt_size_iff hsteady⟩

/-! ### Trails -/

section Trails

variable {t u : Unit → Trail ε α}

theorem eq_found_of_askTrail {a : α} (h : askTrail t = .item a u) : t () = .found a u := by
  unfold askTrail at h
  split at h <;> cases h
  assumption

theorem eq_done_of_askTrail (h : askTrail t = .nothing u) : t () = .done ∧ u = fun _ => .done := by
  unfold askTrail at h
  split at h <;> cases h
  exact ⟨by assumption, rfl⟩

theorem eq_failed_of_askTrail {e : ε} (h : askTrail t = .failed e) : t () = .failed e := by
  unfold askTrail at h
  split at h <;> cases h
  assumption

/-- What a trail has given are its first finds, and it ends as it would have ended. -/
theorem Gives.of_askTrail {as : List α} (h : Gives askTrail t as u) :
    (t ()).finds = as ++ (u ()).finds ∧ (t ()).ending = (u ()).ending := by
  induction h with
  | start => exact ⟨rfl, rfl⟩
  | @item as a u v _ hu ih =>
      rw [ih.1, ih.2, eq_found_of_askTrail hu]
      exact ⟨List.append_cons as a _, rfl⟩
  | @nothing as u v _ hu ih =>
      obtain ⟨hdone, rfl⟩ := eq_done_of_askTrail hu
      rw [ih.1, ih.2, hdone]
      exact ⟨rfl, rfl⟩

/-- A trail that does not fail is a steady source. -/
theorem steady_askTrail (h : (t ()).ending = none) : Steady askTrail t where
  ne_failed := by
    intro as u hgives e hu
    rw [hgives.of_askTrail.2, eq_failed_of_askTrail hu] at h
    cases h
  stays := by
    intro as u v _ hu
    obtain ⟨-, rfl⟩ := eq_done_of_askTrail hu
    exact ⟨_, rfl⟩

/-- The items of a trail are its finds. -/
theorem itemAt?_askTrail (n : Nat) (t : Unit → Trail ε α) :
    itemAt? askTrail n t = (t ()).finds[n]? := by
  induction n generalizing t with
  | zero =>
      rw [itemAt?, askTrail]
      cases t () <;> rfl
  | succ n ih =>
      rw [itemAt?, askTrail]
      cases t () with
      | done => rfl
      | failed e => rfl
      | found a rest => exact ih rest

/-- **A run goes on as an iteration does** that stands at its position: it finds what the iteration
is told, and leaves the replay as the iteration does. -/
theorem Replay.runFrom_of_next {γ : Type} {s : Iterations α (Unit → Trail ε α)} {k i : Nat}
    (hk : s.cursor k = .before i) (hi : i ≤ s.shared.kept.size) (f : α → γ)
    (onward : Replay ε α → Trail ε γ) :
    match s.next askTrail k with
    | (.item a, s') => s'.cursor k = .before (i + 1) ∧ ∃ hi',
        Replay.runFrom f s.shared i hi onward =
          .found (f a) fun _ => Replay.runFrom f s'.shared (i + 1) hi' onward
    | (.over, s') => Replay.runFrom f s.shared i hi onward = onward s'.shared
    | (.failed e, _) => Replay.runFrom f s.shared i hi onward = .failed e := by
  unfold Iterations.next
  cases hpull : Shared.pull askTrail s.shared i with
  | find a r =>
      have h : Replay.pull s.shared i = .find a r := hpull
      simp only [hk, hpull]
      exact ⟨Function.update_self .., (Replay.remaining_of_pull h hi).2,
        Replay.runFrom_of_find f hi onward h⟩
  | exhausted r =>
      simp only [hk, hpull]
      exact Replay.runFrom_of_exhausted f hi onward hpull
  | failed e =>
      simp only [hk, hpull]
      exact Replay.runFrom_of_failed f hi onward hpull

end Trails

/-- Three iterations over a trail with two finds: the first one is overtaken by the second one, which
goes to the end and is asked there once more, and the third one is left midway. -/
theorem iterations_over_two_finds :
    let trail : Unit → Trail String Nat := fun _ => .ofList [10, 20]
    let (replies, s) := (Iterations.start trail).run askTrail [0, 1, 1, 0, 1, 2, 1, 0]
    Steady askTrail trail ∧ repliesTo 0 replies = [.item 10, .item 20, .over] ∧
      repliesTo 1 replies = [.item 10, .item 20, .over, .over] ∧
      repliesTo 2 replies = [.item 10] ∧ (∀ n, n < s.shared.kept.size ↔ n < 2) := by
  have hsteady : Steady askTrail fun _ => (.ofList [10, 20] : Trail String Nat) :=
    steady_askTrail (Trail.ending_ofList _)
  obtain ⟨hreplies, -, hkept⟩ := each_iteration_gives_all_items hsteady [0, 1, 1, 0, 1, 2, 1, 0]
  refine ⟨hsteady, (hreplies 0).trans rfl, (hreplies 1).trans rfl, (hreplies 2).trans rfl,
    fun n => (hkept n).trans ?_⟩
  have hitem : (∃ a, ([10, 20] : List Nat)[n]? = some a) ↔ n < 2 := by
    simp [← Option.isSome_iff_exists]
  rw [itemAt?_askTrail, Trail.finds_ofList, hitem]
  exact and_iff_left_of_imp fun hn => ⟨1, Nat.lt_of_lt_of_le hn (by decide)⟩

end Bibliograph.Search
