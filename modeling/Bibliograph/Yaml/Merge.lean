import Bibliograph.Yaml.Node
import Bibliograph.Yaml.Problem

/-!
# Merged mappings

In a mapping the key `<<` does not stand for itself: the pairs of the mapping under it, or of
several mappings under it, are put in front of the other pairs.  Of several mappings the last one
comes first, so that the first one decides where they differ.  A merged mapping first gets what it
merges itself.

Main definitions:

* `Yaml.Graph.takeMerge?`: a mapping's pairs without the first pair to merge;
* `Yaml.Graph.merged`: the graph in which a mapping holds what it merges.

Main results:

* `Yaml.Graph.merged_of_plain`: without such a key only the mark `=` changes, into a text.
-/

set_option autoImplicit false

namespace Bibliograph.Yaml.Graph

/-- What is under the first merging key of the pairs, and the other pairs. -/
def takeMerge? (g : Graph) : List (Nat × Nat) → Option (Nat × List (Nat × Nat))
  | [] => none
  | p :: ps =>
    if g.hasTag p.1 .merge then some (p.2, ps)
    else (g.takeMerge? ps).map fun r => (r.1, p :: r.2)

theorem length_of_takeMerge? {g : Graph} {ps rest : List (Nat × Nat)} {n : Nat}
    (h : g.takeMerge? ps = some (n, rest)) : rest.length + 1 = ps.length := by
  induction ps generalizing rest with
  | nil => simp [takeMerge?] at h
  | cons p ps ih =>
    rw [takeMerge?] at h
    split at h
    · simp at h
      simp [h.2]
    · obtain ⟨⟨m, r⟩, hr, e⟩ := Option.map_eq_some_iff.1 h
      obtain ⟨rfl, rfl⟩ := Prod.mk.inj e
      simp [ih hr]

/-- Makes a text of the mark `=` where it is a key of the mapping. -/
def withTextKeys (g : Graph) (pairs : List (Nat × Nat)) : Graph :=
  pairs.foldl (fun g p =>
    match g.get? p.1 with
    | some node => if node.tag = .value then g.set p.1 { node with tag := .text } else g
    | none => g) g

/-- The mappings that are merged under a node. -/
def sources (g : Graph) (n : Nat) : Except Problem (List Nat) :=
  match (g.get? n).map Node.content with
  | some (.mapping _) => .ok [n]
  | some (.sequence items) =>
    if items.all fun i => (g.pairs? i).isSome then .ok items else .error .badMerge
  | _ => .error .badMerge

/-- The graph in which the mapping `n` holds what it merges in front of its other pairs, with the
pairs `front` before all of them.  There are at most `room` merging keys in the graph. -/
def mergedWithin (g : Graph) (n : Nat) : (room : Nat) → (front : List (Nat × Nat)) →
    Except Problem Graph
  | 0, _ => .ok g
  | room + 1, front =>
    let pairs := (g.pairs? n).getD []
    match g.takeMerge? pairs with
    | none => .ok ((g.withTextKeys pairs).fill n (.mapping (front ++ pairs)))
    | some (source, rest) => do
      let maps ← g.sources source
      -- the pair is taken out before its sources are merged, since they may lead back here
      let (g, taken) ← maps.foldlM (fun (g, taken) m => do
        let g ← mergedWithin g m room []
        return (g, (g.pairs? m).getD [] ++ taken)) (g.fill n (.mapping rest), [])
      mergedWithin g n room (front ++ taken)

/-- The graph in which the mapping `n` holds what it merges. -/
def merged (g : Graph) (n : Nat) : Except Problem Graph :=
  let count := g.nodes.foldl (fun count node =>
    match node.content with
    | .mapping pairs => count + pairs.length
    | _ => count) 0
  g.mergedWithin n (count + 2) []

theorem merged_of_plain {g : Graph} {n : Nat} {pairs : List (Nat × Nat)}
    (h : g.pairs? n = some pairs) (hm : g.takeMerge? pairs = none) :
    g.merged n = .ok ((g.withTextKeys pairs).fill n (.mapping pairs)) := by
  simp [merged, mergedWithin, h, hm]

end Bibliograph.Yaml.Graph
