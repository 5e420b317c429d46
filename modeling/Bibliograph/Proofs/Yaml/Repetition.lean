import Bibliograph.Proofs.Yaml.Filling

/-!
# Repeated keys and merged mappings

A mapping is checked for repeated keys when it is filled, and what it holds by then need not be
what is written: if a mapping that merges it was filled before, it holds already what it merges
itself, and a key that it only overrides stands in it twice.

Main definitions:

* `Yaml.Graph.DistinctKeys`: no mapping has two equal keys as it is written;
* `Yaml.Graph.Overlaid`: a key that a mapping gets by merging and has besides, where that mapping
  is merged by another one;
* `Yaml.Decoding.Repeats`: a key that is equal to one before it.

Main results:

* `Yaml.Graph.Overlaid.exists_merges`: keys are overlaid only where a mapping that merges another
  one is merged itself;
* `Yaml.Decoding.checkKeys_meets`: a key that is reported is equal to one before it;
* `Yaml.Decoding.container_meets`, `Yaml.Decoding.fillAll_meets`: one collection, and all of them;
* `Yaml.overlaid_of_repeatedKey`: **only keys that a merged mapping overrides are reported where
  no key is written twice**.
-/

set_option autoImplicit false

namespace Bibliograph.Yaml

open Relation

/-! ### Keys as they are written -/

namespace Graph

/-- No mapping of the graph has two equal keys.  Merging keys have no value. -/
def DistinctKeys (g : Graph) : Prop :=
  ∀ n < g.nodes.size, (g.pairsOf n).Pairwise fun p q =>
    ∀ u ∈ g.keyValue? p.1, ∀ v ∈ g.keyValue? q.1, u.same v = false

instance (g : Graph) : Decidable g.DistinctKeys :=
  inferInstanceAs (Decidable (∀ n < g.nodes.size, (g.pairsOf n).Pairwise fun p q =>
    ∀ u ∈ g.keyValue? p.1, ∀ v ∈ g.keyValue? q.1, u.same v = false))

theorem DistinctKeys.pairwise {g : Graph} (h : g.DistinctKeys) (n : Nat) :
    (g.pairsOf n).Pairwise fun p q =>
      ∀ u ∈ g.keyValue? p.1, ∀ v ∈ g.keyValue? q.1, u.same v = false := by
  by_cases hn : n < g.nodes.size
  · exact h n hn
  · have hnone : g.get? n = none := Array.getElem?_eq_none (Nat.le_of_not_lt hn)
    rw [pairsOf, pairs?, hnone]
    exact .nil

/-- Some mapping that another one merges gets a pair with a key equal to `v`, and `v` is the key of
a pair that it has itself or gets as well.  It may be one pair that it gets on two ways. -/
def Overlaid (g : Graph) (v : Value) : Prop :=
  ∃ m n, m ≠ n ∧ g.Merges m n ∧ ∃ p q, g.Gets n p ∧ (q ∈ g.pairsOf n ∨ g.Gets n q) ∧
    ∃ u, g.keyValue? p.1 = some u ∧ g.keyValue? q.1 = some v ∧ u.same v

/-- A key is overlaid only where a mapping that merges another one is merged itself. -/
theorem Overlaid.exists_merges {g : Graph} {v : Value} (h : g.Overlaid v) :
    ∃ m n k, m ≠ n ∧ g.Merges m n ∧ g.Merges n k := by
  obtain ⟨m, n, hne, hmn, p, q, ⟨k, hnk, -⟩, -⟩ := h
  obtain ⟨k, hnk, -⟩ := TransGen.head'_iff.1 hnk
  exact ⟨m, n, k, hne, hmn, hnk⟩

variable {w g : Graph} {below : Nat → Prop} {n : Nat}

/-- Two equal keys are never both a mapping's own, so it got the first of them. -/
theorem MergedBelow.gets_of_same (h : w.MergedBelow below g) (hw : w.DistinctKeys)
    {before after : List (Nat × Nat)} {p q : Nat × Nat} {u v : Value}
    (hp : g.pairs? n = some (before ++ p :: after)) (hq : q ∈ before)
    (hu : w.keyValue? q.1 = some u) (hv : w.keyValue? p.1 = some v) (huv : u.same v) :
    below n ∧ w.Gets n q ∧ (p ∈ w.pairsOf n ∨ w.Gets n p) := by
  have hown : ∀ {own : List (Nat × Nat)}, own.Sublist (w.pairsOf n) →
      ¬ [q, p].Sublist own := by
    intro own hsub hqp
    have hpair := (hw.pairwise n).sublist (hqp.trans hsub)
    rw [List.pairwise_pair] at hpair
    rw [hpair u hu v hv] at huv
    cases huv
  have hqp : [q, p].Sublist (before ++ p :: after) :=
    (List.singleton_sublist.2 hq).append (List.singleton_sublist.2 (List.mem_cons_self ..))
  refine ⟨?_, ?_⟩
  · -- a mapping that still holds what is written has no equal keys
    refine Classical.byContradiction fun hn => hown (.refl _) ?_
    rw [pairsOf, ← h.pairs?_of_not_below hn, hp]
    exact hqp
  · obtain ⟨front, own, heq, hsub, hfront⟩ := h.pairs hp
    rw [heq] at hqp
    obtain ⟨l, r, hlr, hl, hr⟩ := List.sublist_append_iff.1 hqp
    rcases l with _ | ⟨x, _ | ⟨y, l⟩⟩
    · have hr' : [q, p] = r := by simpa using hlr
      exact absurd (hr' ▸ hr) (hown hsub)
    · obtain ⟨rfl, rfl⟩ : q = x ∧ [p] = r := by simpa using hlr
      exact ⟨hfront q (hl.subset (by simp)), .inl (hsub.subset (hr.subset (by simp)))⟩
    · obtain ⟨rfl, rfl, -⟩ : q = x ∧ p = y ∧ [] = l ++ r := by simpa using hlr
      exact ⟨hfront q (hl.subset (by simp)), .inr (hfront p (hl.subset (by simp)))⟩

end Graph

namespace Decoding

variable {w : Graph} {taken : List Nat} {below : Nat → Prop}

/-! ### The check of keys -/

/-- Some pair has the key `v`, and an equal key is among those of `seen` or of a pair before. -/
def Repeats (w : Graph) (seen : List Value) (pairs : List (Nat × Nat)) (v : Value) : Prop :=
  ∃ before p after, pairs = before ++ p :: after ∧ w.keyValue? p.1 = some v ∧
    ∃ u, u.same v ∧ (u ∈ seen ∨ ∃ q ∈ before, w.keyValue? q.1 = some u)

/-- What repeats a key behind a pair repeats it with the pair. -/
theorem Repeats.cons {seen known : List Value} {pairs : List (Nat × Nat)} {v : Value}
    (h : Repeats w seen pairs v) (p : Nat × Nat)
    (hseen : ∀ u ∈ seen, u ∈ known ∨ w.keyValue? p.1 = some u) :
    Repeats w known (p :: pairs) v := by
  obtain ⟨before, q, after, rfl, hq, u, huv, hu⟩ := h
  refine ⟨p :: before, q, after, rfl, hq, u, huv, ?_⟩
  rcases hu with hu | ⟨r, hr, hu⟩
  · rcases hseen u hu with hu | hu
    · exact .inl hu
    · exact .inr ⟨p, List.mem_cons_self .., hu⟩
  · exact .inr ⟨r, List.mem_cons_of_mem _ hr, hu⟩

/-- **A key that is reported is repeated.** -/
theorem checkKeys_meets (seen : List Value) (pairs : List (Nat × Nat)) :
    Meets (Invariant w below taken) (checkKeys seen pairs) (Repeats w seen pairs)
      (fun _ => True) (Invariant w below taken) := by
  induction pairs generalizing seen with
  | nil => exact .pure trivial
  | cons p pairs ih =>
      have hskip := (ih seen).imp fun v hv => hv.cons p fun u hu => .inl hu
      rw [checkKeys]
      refine .get_bind fun s hs => .of_eq hs ?_
      split
      case isTrue => exact hskip
      case isFalse =>
        refine .bind (datum_meets p.1) fun d hd => ?_
        cases d with
        | ref place => exact hskip
        | leaf v =>
            have hv := hd v rfl
            simp only
            split
            case isTrue hany =>
              obtain ⟨u, hu, huv⟩ := List.any_eq_true.1 hany
              refine .get_bind fun t ht => .throw_repeatedKey_bind ?_
              exact ⟨[], p, pairs, rfl, hv, u, huv, .inl hu⟩
            case isFalse =>
              refine (ih (v :: seen)).imp fun u hu => hu.cons p ?_
              intro x hx
              rcases List.mem_cons.1 hx with rfl | hx
              · exact .inr hv
              · exact .inl hx

/-! ### Filling the collections -/

/-- The nodes that are merged into some of these, themselves included. -/
def Below (w : Graph) (filled : List Nat) (k : Nat) : Prop :=
  ∃ n ∈ filled, ReflTransGen w.Merges n k

theorem Below.append {filled : List Nat} {k : Nat} (h : Below w filled k) (n : Nat) :
    Below w (filled ++ [n]) k := by
  obtain ⟨m, hm, hmk⟩ := h
  exact ⟨m, List.mem_append_left _ hm, hmk⟩

/-- Among the mappings on a way of merging there is one that merges the last and is another. -/
theorem exists_merges_of_reflTransGen {m n : Nat} (h : ReflTransGen w.Merges m n) (hne : m ≠ n) :
    ∃ k, k ≠ n ∧ w.Merges k n := by
  induction h with
  | refl => exact absurd rfl hne
  | @tail b c hmb hbc ih =>
      by_cases e : b = c
      · subst e
        exact ih hne
      · exact ⟨b, e, hbc⟩

/-- A key that is repeated in a mapping, where none is written twice, is overlaid. -/
theorem overlaid_of_repeats {s : Decoded} {n : Nat} {filled : List Nat} {pairs : List (Nat × Nat)}
    {v : Value} (hw : w.DistinctKeys) (hs : Invariant w (Below w filled) taken s)
    (hn : n ∉ filled) (hpairs : s.graph.pairs? n = some pairs) (h : Repeats w [] pairs v) :
    w.Overlaid v := by
  obtain ⟨before, p, after, rfl, hv, u, huv, hu⟩ := h
  rcases hu with hu | ⟨q, hq, hu⟩
  · cases hu
  · obtain ⟨⟨m, hm, hmn⟩, hgets, hp⟩ := hs.graph.gets_of_same hw hpairs hq hu hv huv
    -- the mapping that changed `n` was filled before, so it is another one
    have hne : m ≠ n := by
      rintro rfl
      exact hn hm
    obtain ⟨k, hk, hkn⟩ := exists_merges_of_reflTransGen hmn hne
    exact ⟨k, n, hk, hkn, q, p, hgets, hp, u, hu, hv, huv⟩

/-- A mapping that is filled changes what is below it. -/
theorem Invariant.merged {s : Decoded} {n : Nat} {filled : List Nat} {g : Graph}
    (hs : Invariant w (Below w filled) taken s) (hn : (w.pairs? n).isSome)
    (hg : s.graph.merged n = .ok g) :
    Invariant w (Below w (filled ++ [n])) taken { s with graph := g } := by
  have hbelow : ∀ k, ReflTransGen w.Merges n k → Below w (filled ++ [n]) k :=
    fun k hk => ⟨n, by simp, hk⟩
  have hs := hs.mono fun k hk => hk.append n
  exact { hs with graph := hs.graph.merged hn hbelow hg }

/-- **One collection**: it gets what it merges, and a key that is reported is overlaid. -/
theorem container_meets {n : Nat} {filled : List Nat} (hw : w.DistinctKeys) (hn : n ∉ filled) :
    Meets (Invariant w (Below w filled) taken) (container n) w.Overlaid (fun _ => True)
      (Invariant w (Below w (filled ++ [n])) taken) := by
  unfold container
  refine .get_bind fun s hs => ?_
  simp only
  split
  case isTrue =>
      have hs := hs.mono fun k hk => hk.append n
      cases hitems : s.graph.items? n with
      | none => exact .throw_problem
      | some items =>
          exact .of_eq hs (.bind (mapM_meets datum_meets items) fun _ _ => .pure trivial)
  split
  case isTrue =>
      have hs := hs.mono fun k hk => hk.append n
      cases hitems : s.graph.items? n with
      | none => exact .throw_problem
      | some items =>
          exact .of_eq hs (.bind (mapM_meets pairOf_meets items) fun _ _ => .pure trivial)
  case isFalse =>
      cases hpairs : s.graph.pairs? n with
      | none => exact .throw_problem
      | some pairs =>
          have hmap : (w.pairs? n).isSome := by
            rw [← hs.graph.isSome_pairs? n, hpairs]
            rfl
          have hcheck : Meets (Invariant w (Below w filled) taken) (checkKeys [] pairs) w.Overlaid
              (fun _ => True) (Invariant w (Below w filled) taken) :=
            (checkKeys_meets [] pairs).imp fun v hv => overlaid_of_repeats hw hs hn hpairs hv
          refine .bind (.of_eq hs hcheck) fun _ _ => ?_
          -- only after the check the mapping gets what it merges
          refine .get_bind fun t ht => .ofProblem_bind fun g hg => ?_
          have hmerged : ∀ t', t' = t →
              Invariant w (Below w (filled ++ [n])) taken { t' with graph := g } := by
            rintro _ rfl
            exact ht.merged hmap hg
          refine .bind (.modify hmerged) fun _ _ => ?_
          exact .bind (fillPairs_meets _ _) fun _ _ => .pure trivial

/-- **All collections**: every key that is reported is overlaid. -/
theorem fillAll_meets (room : Nat) {filled : List Nat} (hw : w.DistinctKeys) :
    Meets (Invariant w (Below w filled) filled) (fillAll room) w.Overlaid (fun _ => True)
      (fun _ => True) := by
  induction room generalizing filled with
  | zero => exact fun _ _ => ⟨trivial, trivial⟩
  | succ room ih =>
      rw [fillAll]
      refine .get_bind fun s hs => ?_
      cases hwaiting : s.waiting with
      | nil => exact .of_eq trivial (.pure trivial)
      | cons next waiting =>
          obtain ⟨hn, ht⟩ := hs.take hwaiting
          refine .bind (.set ht) fun _ _ => .bind (container_meets hw hn) fun c _ => ?_
          exact .bind (.modify fun t ht => { ht with }) fun _ _ => ih

theorem ofDocument_meets {d : Document} (hw : d.graph.DistinctKeys) :
    Meets (Invariant d.graph (Below d.graph []) []) (ofDocument d) d.graph.Overlaid
      (fun _ => True) (fun _ => True) :=
  .bind (datum_meets d.root) fun _ _ => .bind (fillAll_meets _ hw) fun _ _ => .pure trivial

end Decoding

/-- The data of a document. -/
def Document.data (d : Document) : Except DecodeFault (Datum × Store) := do
  let made := Array.replicate d.graph.nodes.size none
  let (root, s) ← (Decoding.ofDocument d).run { graph := d.graph, made }
  return (root, s.store)

/-- The data of a text are those of its document. -/
theorem decode_of_read {text : List Char} {d : Document}
    (h : Document.read text = .ok (some d)) : decode text = d.data := by
  rw [decode, h]
  rfl

/-- **Where no mapping repeats a key as it is written, only an overlaid key is reported.**

So nothing is reported where no mapping that merges others is merged itself, however many keys are
overridden by merging. -/
theorem overlaid_of_repeatedKey {text : List Char} {d : Document} {v : Value} {line : Nat}
    (hd : Document.read text = .ok (some d)) (hw : d.graph.DistinctKeys)
    (h : decode text = .error (.repeatedKey v line)) : d.graph.Overlaid v := by
  have hmeets := Decoding.ofDocument_meets hw _ (.initial d.graph _)
  rw [decode_of_read hd, Document.data] at h
  cases hrun : (Decoding.ofDocument d).run
      { graph := d.graph, made := Array.replicate d.graph.nodes.size none } with
  | ok r =>
      rw [hrun] at h
      cases h
  | error e =>
      rw [hrun] at h hmeets
      cases h
      exact hmeets

/-! ### Two documents in which a key is reported -/

/-- The text that is reported as a repeated key, with its line. -/
def repeatedText? (r : Except DecodeFault (Datum × Store)) : Option (String × Nat) :=
  match r with
  | .error (.repeatedKey (.text s) line) => some (s, line)
  | _ => none

/-- A test for a text that is reported although no key is written twice. -/
theorem exists_reported {text : List Char} {key : String} {line : Nat}
    (h : (Document.read text).toOption.join.any fun d =>
      d.graph.DistinctKeys ∧ repeatedText? d.data = some (key, line)) :
    ∃ d, Document.read text = .ok (some d) ∧ d.graph.DistinctKeys ∧
      decode text = .error (.repeatedKey (.text key) line) := by
  cases hread : Document.read text with
  | error p =>
      rw [hread] at h
      cases h
  | ok d =>
      rw [hread] at h
      cases d with
      | none => cases h
      | some d =>
          obtain ⟨hw, hdata⟩ := of_decide_eq_true h
          refine ⟨d, rfl, hw, ?_⟩
          rw [decode_of_read hread]
          unfold repeatedText? at hdata
          split at hdata
          · cases hdata
            assumption
          · cases hdata

/-- In a mapping that merges two others and is merged itself, their common key is reported. -/
theorem overlaid_of_repeatedKey_of_two_sources :
    let text := "a: &a {k: 1}\nb: &b {k: 2}\nc: {d: &d {<<: [*a, *b]}}\ne: {<<: *d}".toList
    ∃ d, Document.read text = .ok (some d) ∧ d.graph.DistinctKeys ∧
      decode text = .error (.repeatedKey (.text "k") 1) ∧ d.graph.Overlaid (.text "k") := by
  intro text
  obtain ⟨d, hd, hw, h⟩ := exists_reported (by decide +kernel :
    (Document.read text).toOption.join.any fun d =>
      d.graph.DistinctKeys ∧ repeatedText? d.data = some ("k", 1))
  exact ⟨d, hd, hw, h, overlaid_of_repeatedKey hd hw h⟩

/-- **A key that is only overridden may be reported as repeated.**  The mapping `d` is filled after
the mapping under `two`, which merges it. -/
theorem overridden_key_reported :
    let text := ("base: &base {type: Book, title: A}\n" ++
      "one:\n  type: Article\n  parent: &d {<<: *base, title: B}\ntwo: {<<: *d}\n").toList
    ∃ d, Document.read text = .ok (some d) ∧ d.graph.DistinctKeys ∧
      decode text = .error (.repeatedKey (.text "title") 4) := by
  intro text
  exact exists_reported (by decide +kernel)

/-- A key that is overridden where no other mapping merges the result is not reported. -/
example : (decode "base: &base {title: A}\none: {<<: *base, title: B}".toList).isOk := by
  decide +kernel

end Bibliograph.Yaml
