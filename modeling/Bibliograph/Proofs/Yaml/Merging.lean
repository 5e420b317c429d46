import Bibliograph.Proofs.Sequence
import Bibliograph.Yaml.Merge
import Mathlib.Logic.Relation

/-!
# What merging leaves of a document

When a mapping gets what it merges, the mappings that it merges are changed as well, for they get
what they merge themselves first.  Nevertheless every node stays recognizable: only the mark `=`
turns into a text, and a mapping holds pairs that it got by merging in front of pairs of its own.

Main definitions:

* `Yaml.Graph.Merges`: a mapping is one of those that another one merges;
* `Yaml.Graph.Gets`: a pair that a mapping gets by merging, however many mappings are between;
* `Yaml.Graph.Remains`, `Yaml.Graph.MergedBelow`: what becomes of a node, and of a graph.

Main results:

* `Yaml.Graph.MergedBelow.mergedWithin`: **merging changes only what is merged**, and keeps what
  was recognizable;
* `Yaml.Graph.MergedBelow.merged`: the same for a mapping with all that it merges.
-/

set_option autoImplicit false

namespace Bibliograph.Yaml.Graph

open Relation

/-! ### Nodes under other contents -/

section Set

variable {g : Graph} {n k : Nat} {a b : Node}

theorem get?_set_self (h : g.get? n = some a) (b : Node) : (g.set n b).get? n = some b := by
  have hn : n < g.nodes.size := (Array.getElem?_eq_some_iff.1 h).1
  simp [get?, set, hn]

theorem get?_set_of_ne (h : k ≠ n) (b : Node) : (g.set n b).get? k = g.get? k := by
  simp [get?, set, Array.getElem?_setIfInBounds_ne h.symm]

end Set

/-- The pairs of a node, none unless it is a mapping. -/
def pairsOf (g : Graph) (n : Nat) : List (Nat × Nat) :=
  (g.pairs? n).getD []

/-- The mapping `n` is one of those under a merging key of the mapping `m`. -/
def Merges (g : Graph) (m n : Nat) : Prop :=
  ∃ p ∈ g.pairsOf m, g.hasTag p.1 .merge ∧ ∃ maps, g.sources p.2 = .ok maps ∧ n ∈ maps

/-- The mapping `n` gets the pair `p` from a mapping that it merges, that this one merges, and so
on. -/
def Gets (g : Graph) (n : Nat) (p : Nat × Nat) : Prop :=
  ∃ m, TransGen g.Merges n m ∧ p ∈ g.pairsOf m

theorem Gets.of_merges {g : Graph} {m n : Nat} {p : Nat × Nat} (h : TransGen g.Merges n m)
    (hp : g.Gets m p) : g.Gets n p := by
  obtain ⟨s, hs, hp⟩ := hp
  exact ⟨s, h.trans hs, hp⟩

/-- What is merged under a node are mappings. -/
theorem isSome_pairs?_of_mem_sources {g : Graph} {n m : Nat} {maps : List Nat}
    (h : g.sources n = .ok maps) (hm : m ∈ maps) : (g.pairs? m).isSome := by
  unfold sources at h
  split at h
  case h_1 pairs hc =>
      cases h
      cases List.mem_singleton.1 hm
      simp [pairs?, hc]
  case h_2 items hc =>
      split at h
      case isTrue hi =>
          cases h
          exact List.all_eq_true.1 hi m hm
      case isFalse => cases h
  case h_3 => cases h

theorem pairs?_eq_some_iff {g : Graph} {n : Nat} {ps : List (Nat × Nat)} :
    g.pairs? n = some ps ↔ ∃ node, g.get? n = some node ∧ node.content = .mapping ps := by
  unfold pairs?
  cases g.get? n with
  | none => simp
  | some node =>
      obtain ⟨tag, content, line⟩ := node
      cases content with
      | scalar text => simp
      | sequence items => simp
      | mapping qs => simp

/-! ### What remains of a node -/

/-- What may become of the node `a` with the number `n` of the graph `w`: it turns into `b`, and
it holds other pairs only where `below` allows it. -/
structure Remains (w : Graph) (below : Nat → Prop) (n : Nat) (a b : Node) : Prop where
  line : b.line = a.line
  tag : b.tag = a.tag ∨ a.tag = .value ∧ b.tag = .text
  content : b.content = a.content ∨ below n ∧ ∃ front own ps,
    a.content = .mapping ps ∧ b.content = .mapping (front ++ own) ∧
      own.Sublist ps ∧ ∀ p ∈ front, w.Gets n p

/-- What may become of the graph `w` when mappings get what they merge and other pairs stand only
in the nodes `below`. -/
def MergedBelow (w : Graph) (below : Nat → Prop) (g : Graph) : Prop :=
  ∀ n, w.get? n = none ∧ g.get? n = none ∨
    ∃ a b, w.get? n = some a ∧ g.get? n = some b ∧ w.Remains below n a b

variable {w g g' : Graph} {below : Nat → Prop} {n m k : Nat} {a b : Node}

theorem Remains.refl (w : Graph) (below : Nat → Prop) (n : Nat) (a : Node) :
    w.Remains below n a a :=
  ⟨rfl, .inl rfl, .inl rfl⟩

/-- The tag of merging keys neither comes nor goes. -/
theorem Remains.tag_eq_merge_iff (h : w.Remains below n a b) : b.tag = .merge ↔ a.tag = .merge := by
  rcases h.tag with e | ⟨ha, hb⟩
  · rw [e]
  · simp [ha, hb]

/-- The pairs of a mapping are pairs that it got in front of pairs of its own. -/
theorem Remains.pairs {qs : List (Nat × Nat)} (h : w.Remains below n a b)
    (hb : b.content = .mapping qs) : ∃ front own ps, a.content = .mapping ps ∧
      qs = front ++ own ∧ own.Sublist ps ∧ ∀ p ∈ front, w.Gets n p := by
  rcases h.content with e | ⟨-, front, own, ps, ha, hb', hown, hfront⟩
  · exact ⟨[], qs, qs, e ▸ hb, rfl, .refl _, by simp⟩
  · rw [hb] at hb'
    exact ⟨front, own, ps, ha, Content.mapping.inj hb', hown, hfront⟩

/-- Whether a node is a mapping does not change. -/
theorem Remains.isMapping_iff (h : w.Remains below n a b) :
    (∃ qs, b.content = .mapping qs) ↔ ∃ ps, a.content = .mapping ps := by
  rcases h.content with e | ⟨-, front, own, ps, ha, hb, -⟩
  · rw [e]
  · exact ⟨fun _ => ⟨ps, ha⟩, fun _ => ⟨_, hb⟩⟩

namespace MergedBelow

theorem refl (w : Graph) (below : Nat → Prop) : w.MergedBelow below w := by
  intro n
  cases hw : w.get? n with
  | none => exact .inl ⟨rfl, rfl⟩
  | some a => exact .inr ⟨a, a, rfl, rfl, .refl w below n a⟩

theorem mono {below' : Nat → Prop} (h : w.MergedBelow below g) (hb : ∀ k, below k → below' k) :
    w.MergedBelow below' g := by
  intro n
  refine (h n).imp_right ?_
  rintro ⟨a, b, ha, hg, hr⟩
  exact ⟨a, b, ha, hg, hr.line, hr.tag, hr.content.imp_right fun c => ⟨hb n c.1, c.2⟩⟩

/-- What has become of a node. -/
theorem exists_remains (h : w.MergedBelow below g) (hb : g.get? n = some b) :
    ∃ a, w.get? n = some a ∧ w.Remains below n a b := by
  rcases h n with ⟨-, hg⟩ | ⟨a, b', ha, hg, hr⟩
  · rw [hb] at hg
    cases hg
  · rw [hb] at hg
    cases hg
    exact ⟨a, ha, hr⟩

theorem hasTag_merge (h : w.MergedBelow below g) (n : Nat) :
    g.hasTag n .merge = w.hasTag n .merge := by
  unfold hasTag
  rcases h n with ⟨hw, hg⟩ | ⟨a, b, hw, hg, hr⟩
  · rw [hw, hg]
  · rw [hw, hg, Bool.eq_iff_iff]
    simpa using hr.tag_eq_merge_iff

/-- The pairs of a mapping, by where they come from. -/
theorem pairs (h : w.MergedBelow below g) {qs : List (Nat × Nat)} (hq : g.pairs? n = some qs) :
    ∃ front own, qs = front ++ own ∧ own.Sublist (w.pairsOf n) ∧ ∀ p ∈ front, w.Gets n p := by
  obtain ⟨b, hb, hc⟩ := pairs?_eq_some_iff.1 hq
  obtain ⟨a, ha, hr⟩ := h.exists_remains hb
  obtain ⟨front, own, ps, hps, rfl, hown, hfront⟩ := hr.pairs hc
  have hw : w.pairs? n = some ps := pairs?_eq_some_iff.2 ⟨a, ha, hps⟩
  exact ⟨front, own, rfl, by rwa [pairsOf, hw], hfront⟩

theorem isSome_pairs? (h : w.MergedBelow below g) (n : Nat) :
    (g.pairs? n).isSome = (w.pairs? n).isSome := by
  rw [Bool.eq_iff_iff]
  simp only [Option.isSome_iff_exists, pairs?_eq_some_iff]
  rcases h n with ⟨hw, hg⟩ | ⟨a, b, hw, hg, hr⟩
  · simp [hw, hg]
  · have := hr.isMapping_iff
    simpa [hw, hg] using this

/-- Other pairs stand only where it is allowed. -/
theorem pairs?_of_not_below (h : w.MergedBelow below g) (hn : ¬ below n) :
    g.pairs? n = w.pairs? n := by
  unfold pairs?
  rcases h n with ⟨hw, hg⟩ | ⟨a, b, hw, hg, hr⟩
  · rw [hw, hg]
  · rcases hr.content with e | ⟨hb, -⟩
    · simp [hw, hg, e]
    · exact absurd hb hn

/-- The mappings under a node stay the same. -/
theorem sources (h : w.MergedBelow below g) (n : Nat) : g.sources n = w.sources n := by
  unfold Graph.sources
  rcases h n with ⟨hw, hg⟩ | ⟨a, b, hw, hg, hr⟩
  · simp [hw, hg]
  · rcases hr.content with e | ⟨-, front, own, ps, ha, hb, -⟩
    · simp [hw, hg, e, h.isSome_pairs?]
    · simp [hw, hg, ha, hb]

/-! ### Steps of merging -/

/-- A node may be replaced by anything that may become of it. -/
theorem set (h : w.MergedBelow below g) (hb : g.get? n = some b) {b' : Node}
    (hr : ∀ a, w.get? n = some a → w.Remains below n a b → w.Remains below n a b') :
    w.MergedBelow below (g.set n b') := by
  intro k
  by_cases hk : k = n
  · subst hk
    obtain ⟨a, ha, hab⟩ := h.exists_remains hb
    exact .inr ⟨a, b', ha, get?_set_self hb b', hr a ha hab⟩
  · rw [get?_set_of_ne hk]
    exact h k

/-- A mark among the keys may become a text. -/
theorem withTextKeys (h : w.MergedBelow below g) (pairs : List (Nat × Nat)) :
    w.MergedBelow below (g.withTextKeys pairs) := by
  unfold Graph.withTextKeys
  induction pairs generalizing g with
  | nil => exact h
  | cons p pairs ih =>
      rw [List.foldl_cons]
      apply ih
      cases hg : g.get? p.1 with
      | none => exact h
      | some node =>
          by_cases ht : node.tag = .value
          · simp only [ht, if_true]
            refine h.set hg fun a _ hr => ⟨hr.line, .inr ⟨?_, rfl⟩, hr.content⟩
            rcases hr.tag with e | ⟨-, e⟩
            · rw [← e, ht]
            · rw [ht] at e
              cases e
          · simp only [ht, if_false]
            exact h

/-- A mapping may hold some of its own pairs behind pairs that it gets. -/
theorem fill (h : w.MergedBelow below g) (hn : below n) {front own : List (Nat × Nat)}
    (hw : (w.pairs? n).isSome) (hown : own.Sublist (w.pairsOf n))
    (hfront : ∀ p ∈ front, w.Gets n p) :
    w.MergedBelow below (g.fill n (.mapping (front ++ own))) := by
  unfold Graph.fill
  cases hg : g.get? n with
  | none => exact h
  | some b =>
      refine h.set hg fun a ha hr => ⟨hr.line, hr.tag, .inr ⟨hn, front, own, w.pairsOf n, ?_⟩⟩
      obtain ⟨ps, hps⟩ := Option.isSome_iff_exists.1 hw
      obtain ⟨a', ha', hc⟩ := pairs?_eq_some_iff.1 hps
      rw [ha] at ha'
      cases ha'
      rw [pairsOf, hps] at hown ⊢
      exact ⟨hc, rfl, hown, hfront⟩

end MergedBelow

/-! ### A whole merge -/

/-- The pair that is taken out has a merging key, and the others stay in their order. -/
theorem of_takeMerge? {ps rest : List (Nat × Nat)} {source : Nat}
    (h : g.takeMerge? ps = some (source, rest)) :
    rest.Sublist ps ∧ ∃ k, (k, source) ∈ ps ∧ g.hasTag k .merge := by
  induction ps generalizing rest with
  | nil => cases h
  | cons p ps ih =>
      rw [takeMerge?] at h
      by_cases hp : g.hasTag p.1 .merge
      · rw [if_pos hp] at h
        cases h
        exact ⟨List.sublist_cons_self .., p.1, List.mem_cons_self .., hp⟩
      · rw [if_neg hp] at h
        obtain ⟨⟨m, r⟩, hr, e⟩ := Option.map_eq_some_iff.1 h
        cases e
        obtain ⟨hsub, k, hk, htag⟩ := ih hr
        exact ⟨hsub.cons_cons p, k, List.mem_cons_of_mem _ hk, htag⟩

namespace MergedBelow

/-- A mapping merges what stands under a merging key, be the key its own or one that it got. -/
theorem transGen_of_mem_sources (h : w.MergedBelow below g) {source : Nat} {maps : List Nat}
    (hk : (k, source) ∈ g.pairsOf n) (htag : g.hasTag k .merge)
    (hs : g.sources source = .ok maps) (hm : m ∈ maps) : TransGen w.Merges n m := by
  rw [h.hasTag_merge] at htag
  rw [h.sources] at hs
  cases hq : g.pairs? n with
  | none =>
      rw [pairsOf, hq] at hk
      cases hk
  | some qs =>
      rw [pairsOf, hq] at hk
      obtain ⟨front, own, rfl, hown, hfront⟩ := h.pairs hq
      rcases List.mem_append.1 hk with hk | hk
      · obtain ⟨s, hns, hps⟩ := hfront _ hk
        exact hns.tail ⟨(k, source), hps, htag, maps, hs, hm⟩
      · exact .single ⟨(k, source), hown.subset hk, htag, maps, hs, hm⟩

/-- The pairs of a mapping that is merged are pairs to get. -/
theorem gets_of_mem_pairsOf (h : w.MergedBelow below g) (hm : TransGen w.Merges n m)
    {p : Nat × Nat} (hp : p ∈ g.pairsOf m) : w.Gets n p := by
  cases hq : g.pairs? m with
  | none =>
      rw [pairsOf, hq] at hp
      cases hp
  | some qs =>
      rw [pairsOf, hq] at hp
      obtain ⟨front, own, rfl, hown, hfront⟩ := h.pairs hq
      rcases List.mem_append.1 hp with hp | hp
      · exact (hfront p hp).of_merges hm
      · exact ⟨m, hm, hown.subset hp⟩

/-- **Merging changes only what is merged.** -/
theorem mergedWithin {room : Nat} {front : List (Nat × Nat)} (h : w.MergedBelow below g)
    (hn : (w.pairs? n).isSome) (hb : ∀ k, ReflTransGen w.Merges n k → below k)
    (hf : ∀ p ∈ front, w.Gets n p) (hg : g.mergedWithin n room front = .ok g') :
    w.MergedBelow below g' := by
  induction room generalizing g n front g' with
  | zero =>
      cases hg
      exact h
  | succ room ih =>
      obtain ⟨qs, hq⟩ := Option.isSome_iff_exists.1 ((h.isSome_pairs? n).trans hn)
      obtain ⟨got, own, hqs, hown, hgot⟩ := h.pairs hq
      rw [Graph.mergedWithin, hq, Option.getD_some] at hg
      cases ht : g.takeMerge? qs with
      | none =>
          -- all is merged, and the pairs are put behind `front`
          rw [ht] at hg
          cases hg
          rw [hqs, ← List.append_assoc]
          refine (h.withTextKeys _).fill (hb n .refl) hn hown ?_
          intro p hp
          rcases List.mem_append.1 hp with hp | hp
          · exact hf p hp
          · exact hgot p hp
      | some taken =>
          obtain ⟨source, rest⟩ := taken
          obtain ⟨hrest, k, hk, htag⟩ := of_takeMerge? ht
          rw [ht] at hg
          obtain ⟨maps, hs, hg⟩ := bind_eq_ok_iff.1 hg
          have hmerges : ∀ m ∈ maps, TransGen w.Merges n m := fun m hm =>
            h.transGen_of_mem_sources (by rwa [pairsOf, hq]) htag hs hm
          obtain ⟨⟨g₁, taken⟩, hfold, hg⟩ := bind_eq_ok_iff.1 hg
          have hrest' : w.MergedBelow below (g.fill n (.mapping rest)) := by
            obtain ⟨l, r, rfl, hl, hr⟩ := List.sublist_append_iff.1 (hqs ▸ hrest)
            exact h.fill (hb n .refl) hn (hr.trans hown) fun p hp => hgot p (hl.subset hp)
          have hfold := foldlM_invariant
            (P := fun t => w.MergedBelow below t.1 ∧ ∀ p ∈ t.2, w.Gets n p)
            ⟨hrest', by simp⟩ ?_ hfold
          · refine ih hfold.1 hn hb ?_ hg
            intro p hp
            rcases List.mem_append.1 hp with hp | hp
            · exact hf p hp
            · exact hfold.2 p hp
          · rintro m hm ⟨g₂, taken₂⟩ ⟨h₂, ht₂⟩ ⟨g₃, taken₃⟩ hstep
            obtain ⟨g₃, hg₃, hstep⟩ := bind_eq_ok_iff.1 hstep
            cases hstep
            have h₃ : w.MergedBelow below g₃ := by
              refine ih h₂ ?_ (fun k hk => hb k ?_) (by simp) hg₃
              · rw [h.sources] at hs
                exact isSome_pairs?_of_mem_sources hs hm
              · exact (hmerges m hm).to_reflTransGen.trans hk
            refine ⟨h₃, fun p hp => ?_⟩
            rcases List.mem_append.1 hp with hp | hp
            · exact h₃.gets_of_mem_pairsOf (hmerges m hm) hp
            · exact ht₂ p hp

/-- What holds of a mapping with all that it merges. -/
theorem merged (h : w.MergedBelow below g) (hn : (w.pairs? n).isSome)
    (hb : ∀ k, ReflTransGen w.Merges n k → below k) (hg : g.merged n = .ok g') :
    w.MergedBelow below g' :=
  h.mergedWithin hn hb (by simp) hg

end MergedBelow

end Bibliograph.Yaml.Graph
