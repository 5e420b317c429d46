import Bibliograph.Proofs.Yaml.Merging
import Bibliograph.Yaml.Decode
import Mathlib.Data.List.Nodup

/-!
# What holds while collections are filled

A collection is filled in its turn, and until then other collections have been filled and have
changed the mappings that they merge.  What stays true is that every node stands for what is
written there, and that no collection gets a second turn.

Main definitions:

* `Yaml.Graph.keyValue?`: the value of a key as it is written;
* `Yaml.Decoding.Meets`: what a computation keeps, and which keys it reports;
* `Yaml.Decoding.Invariant`: what holds while collections are filled.

Main results:

* `Yaml.Decoding.datum_meets`: **the datum of a node is what is written there**;
* `Yaml.Decoding.pairOf_meets`, `Yaml.Decoding.mapM_meets`, `Yaml.Decoding.fillPairs_meets`: the
  parts of collections.
-/

set_option autoImplicit false

namespace Bibliograph.Yaml

namespace Graph

/-- The value of a scalar as a key, where the mark `=` is a text. -/
def keyValue? (g : Graph) (n : Nat) : Option Value :=
  match g.get? n with
  | some ⟨tag, .scalar text, _⟩ => ((if tag = .value then .text else tag).read text).toOption
  | _ => none

variable {w g : Graph} {below : Nat → Prop} {n : Nat}

/-- Merging keeps the values of keys. -/
theorem MergedBelow.keyValue?_of_read (h : w.MergedBelow below g) {b : Node} {text : String}
    {v : Value} (hb : g.get? n = some b) (hc : b.content = .scalar text)
    (hv : b.tag.read text = .ok v) : w.keyValue? n = some v := by
  obtain ⟨a, ha, hr⟩ := h.exists_remains hb
  have hca : a.content = .scalar text := by
    rcases hr.content with e | ⟨-, front, own, ps, -, hm, -⟩
    · rw [← e, hc]
    · rw [hc] at hm
      cases hm
  obtain ⟨tag, content, line⟩ := a
  subst hca
  unfold keyValue?
  rw [ha]
  rcases hr.tag with e | ⟨hval, htext⟩
  · have hne : tag ≠ .value := by
      rintro rfl
      rw [e] at hv
      cases hv
    simp only [if_neg hne]
    rw [← show b.tag = tag from e, hv]
    rfl
  · rw [htext] at hv
    simp only [if_pos hval, hv]
    rfl

end Graph

/-! ### Computations and what they report -/

namespace Decoding

variable {α β : Type} {I J K : Decoded → Prop} {R : Value → Prop} {D : α → Prop}
  {E : β → Prop}

/-- From a state with `I` the computation has a result with `D` and leaves a state with `J`, or it
fails; if it reports a repeated key, `R` holds of that key. -/
def Meets (I : Decoded → Prop) (x : Decoding α) (R : Value → Prop) (D : α → Prop)
    (J : Decoded → Prop) : Prop :=
  ∀ s, I s → match x.run s with
    | .ok (a, t) => D a ∧ J t
    | .error (.repeatedKey v _) => R v
    | .error (.problem _) => True

namespace Meets

theorem pure {a : α} (h : D a) : Meets I (pure a) R D I :=
  fun _ hs => ⟨h, hs⟩

theorem bind {x : Decoding α} {f : α → Decoding β} (hx : Meets I x R D J)
    (hf : ∀ a, D a → Meets J (f a) R E K) : Meets I (x >>= f) R E K := by
  intro s hs
  have hx := hx s hs
  rw [StateT.run_bind]
  cases h : x.run s with
  | error e =>
      rw [h] at hx
      cases e with
      | problem p => trivial
      | repeatedKey v line => exact hx
  | ok r =>
      rw [h] at hx
      exact hf r.1 hx.1 r.2 hx.2

theorem imp {S : Value → Prop} {x : Decoding α} (h : Meets I x R D J) (hR : ∀ v, R v → S v) :
    Meets I x S D J := by
  intro s hs
  have h := h s hs
  split at h
  case h_1 => exact h
  case h_2 => exact hR _ h
  case h_3 => trivial

theorem of_eq {s : Decoded} {x : Decoding α} (hs : I s) (h : Meets I x R D J) :
    Meets (· = s) x R D J :=
  fun t ht => h t (ht ▸ hs)

/-- The state that is read may be taken as fixed. -/
theorem get_bind {f : Decoded → Decoding α} (h : ∀ s, I s → Meets (· = s) (f s) R D J) :
    Meets I (get >>= f) R D J :=
  fun s hs => h s hs s rfl

theorem modify {f : Decoded → Decoded} (h : ∀ s, I s → J (f s)) :
    Meets I (modify f) R (fun _ => True) J :=
  fun s hs => ⟨trivial, h s hs⟩

theorem set {s : Decoded} (h : J s) : Meets I (set s) R (fun _ => True) J :=
  fun _ _ => ⟨trivial, h⟩

theorem throw_problem {p : Problem} : Meets I (throw (.problem p) : Decoding α) R D J :=
  fun _ _ => trivial

theorem throw_repeatedKey_bind {v : Value} {line : Nat} {f : α → Decoding β} (h : R v) :
    Meets I (throw (.repeatedKey v line) >>= f) R E J :=
  fun _ _ => h

theorem ofProblem_bind {r : Except Problem α} {f : α → Decoding β}
    (h : ∀ a, r = .ok a → Meets I (f a) R E J) : Meets I (ofProblem r >>= f) R E J := by
  cases r with
  | error p => exact throw_problem
  | ok a => exact h a rfl

end Meets

/-! ### What holds while collections are filled -/

/-- What a node stands for agrees with what is written. -/
def IsDatumOf (w : Graph) (n : Nat) (d : Datum) : Prop :=
  ∀ v, d = .leaf v → w.keyValue? n = some v

/-- What holds of the data so far: `w` is the graph as it is written, and the nodes `taken` have
been taken to be filled. -/
structure Invariant (w : Graph) (below : Nat → Prop) (taken : List Nat) (s : Decoded) : Prop where
  graph : w.MergedBelow below s.graph
  size : s.made.size = w.nodes.size
  datum : ∀ n d, s.made[n]?.join = some d → IsDatumOf w n d
  nodup : (taken ++ s.waiting.map Prod.fst).Nodup
  made : ∀ n ∈ taken ++ s.waiting.map Prod.fst, (s.made[n]?.join).isSome

variable {w : Graph} {below : Nat → Prop} {taken : List Nat}

namespace Invariant

variable {s : Decoded} {n : Nat}

/-- What is made of a node may be noted. -/
theorem keep (h : Invariant w below taken s) {d : Datum} (hd : IsDatumOf w n d) :
    Invariant w below taken { s with made := s.made.setIfInBounds n (some d) } where
  graph := h.graph
  size := by simp [h.size]
  datum k d' hk := by
    rw [Array.getElem?_setIfInBounds] at hk
    split at hk
    case isTrue e =>
        subst e
        split at hk
        · cases hk
          exact hd
        · cases hk
    case isFalse => exact h.datum k d' hk
  nodup := h.nodup
  made k hk := by
    have := h.made k hk
    rw [Array.getElem?_setIfInBounds]
    split
    case isTrue e =>
        subst e
        split
        · rfl
        · simp_all
    case isFalse => exact this

/-- A new collection may wait at the end. -/
theorem reserve (h : Invariant w below taken s) (hn : n < w.nodes.size)
    (hnew : s.made[n]?.join = none) (store : Store) (place : Nat) :
    Invariant w below taken
      { graph := s.graph, store, waiting := s.waiting ++ [(n, place)],
        made := s.made.setIfInBounds n (some (.ref place)) } := by
  have hk := h.keep (n := n) (d := .ref place) (fun v hv => nomatch hv)
  refine ⟨hk.graph, hk.size, hk.datum, ?_, ?_⟩
  · -- a datum was made of whatever was taken or waits, and of `n` none
    have hfresh : n ∉ taken ++ s.waiting.map Prod.fst := by
      intro hmem
      have := h.made n hmem
      rw [hnew] at this
      cases this
    rw [List.map_append, ← List.append_assoc]
    exact List.nodup_append'.2 ⟨h.nodup, List.nodup_singleton n, by simpa using hfresh⟩
  · intro k hmem
    rw [List.map_append, ← List.append_assoc] at hmem
    rcases List.mem_append.1 hmem with hmem | hmem
    · exact hk.made k hmem
    · cases List.mem_singleton.1 hmem
      simp [h.size, hn]

theorem mono {below' : Nat → Prop} (h : Invariant w below taken s)
    (hb : ∀ k, below k → below' k) : Invariant w below' taken s :=
  { h with graph := h.graph.mono hb }

/-- The first collection that waits may be taken, and it has not been taken before. -/
theorem take {next : Nat × Nat} {waiting : List (Nat × Nat)} (h : Invariant w below taken s)
    (hs : s.waiting = next :: waiting) :
    next.1 ∉ taken ∧ Invariant w below (taken ++ [next.1]) { s with waiting } := by
  have hqueue : taken ++ s.waiting.map Prod.fst =
      (taken ++ [next.1]) ++ waiting.map Prod.fst := by
    simp [hs]
  refine ⟨?_, h.graph, h.size, h.datum, hqueue ▸ h.nodup, hqueue ▸ h.made⟩
  intro hmem
  have hnodup := h.nodup
  rw [hs, List.map_cons] at hnodup
  exact List.disjoint_of_nodup_append hnodup hmem (List.mem_cons_self ..)

/-- Filling starts with the graph as it is written. -/
theorem initial (w : Graph) (below : Nat → Prop) :
    Invariant w below [] { graph := w, made := Array.replicate w.nodes.size none } where
  graph := .refl w below
  size := by simp
  datum n d h := by
    rw [Array.getElem?_replicate] at h
    split at h
    · cases h
    · cases h
  nodup := by simp
  made n h := by cases h

end Invariant

/-! ### Data of nodes -/

theorem keep_meets {n : Nat} {d : Datum} (hd : IsDatumOf w n d) :
    Meets (Invariant w below taken) (keep n d) R (IsDatumOf w n) (Invariant w below taken) :=
  fun _ hs => ⟨hd, hs.keep hd⟩

theorem reserve_meets {s : Decoded} {n : Nat} (hs : Invariant w below taken s)
    (hn : n < w.nodes.size) (hnew : s.made[n]?.join = none) (c : Container) :
    Meets (· = s) (reserve n c) R (IsDatumOf w n) (Invariant w below taken) := by
  rintro s rfl
  exact ⟨fun _ hv => (nomatch hv), hs.reserve hn hnew _ _⟩

/-- **The datum of a node is what is written there**, and no key is reported for it. -/
theorem datum_meets (n : Nat) :
    Meets (Invariant w below taken) (datum n) R (IsDatumOf w n) (Invariant w below taken) := by
  unfold datum
  refine .get_bind fun s hs => ?_
  cases hmade : s.made[n]?.join with
  | some d => exact .of_eq hs (.pure (hs.datum n d hmade))
  | none =>
      cases hnode : s.graph.get? n with
      | none => exact .throw_problem
      | some node =>
          have hn : n < w.nodes.size := by
            obtain ⟨a, ha, -⟩ := hs.graph.exists_remains hnode
            exact (Array.getElem?_eq_some_iff.1 ha).1
          simp only
          split
          case h_1 => exact reserve_meets hs hn hmade _
          case h_2 => exact reserve_meets hs hn hmade _
          case h_3 => exact reserve_meets hs hn hmade _
          case h_4 text _ hc _ _ _ =>
            refine .of_eq hs (.ofProblem_bind fun v hv => keep_meets ?_)
            rintro u ⟨⟩
            exact hs.graph.keyValue?_of_read hnode hc hv
          case h_5 => exact .throw_problem

/-- No key is reported for a pair. -/
theorem pairOf_meets (n : Nat) :
    Meets (Invariant w below taken) (pairOf n) R (fun _ => True) (Invariant w below taken) := by
  unfold pairOf
  refine .get_bind fun s hs => ?_
  split
  case h_1 k v _ =>
      refine .bind (.of_eq hs (datum_meets k)) fun key _ => .bind (datum_meets v) fun d _ => ?_
      -- a place is given, and nothing is noted of any node
      exact .get_bind fun t ht => .bind (.set { ht with }) fun _ _ => .pure trivial
  case h_2 => exact .throw_problem

/-- No key is reported for the items of a sequence if none is for a single one. -/
theorem mapM_meets {item : Nat → Decoding Datum} {D : Nat → Datum → Prop}
    (hitem : ∀ n, Meets (Invariant w below taken) (item n) R (D n) (Invariant w below taken))
    (items : List Nat) :
    Meets (Invariant w below taken) (items.mapM item) R (fun _ => True)
      (Invariant w below taken) := by
  induction items with
  | nil => exact .pure trivial
  | cons n items ih =>
      rw [List.mapM_cons]
      exact .bind (hitem n) fun d _ => .bind ih fun ds _ => .pure trivial

/-- No key is reported while pairs are filled in. -/
theorem fillPairs_meets (filled : List (Value × Datum)) (pairs : List (Nat × Nat)) :
    Meets (Invariant w below taken) (fillPairs filled pairs) R (fun _ => True)
      (Invariant w below taken) := by
  induction pairs generalizing filled with
  | nil => exact .pure trivial
  | cons p pairs ih =>
      rw [fillPairs]
      refine .bind (datum_meets p.1) fun d _ => ?_
      cases d with
      | ref place => exact .throw_problem
      | leaf key => exact .bind (datum_meets p.2) fun d _ => ih _

end Decoding

end Bibliograph.Yaml
