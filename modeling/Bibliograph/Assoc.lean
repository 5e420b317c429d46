/-!
# Association lists in order of insertion

Main definitions:

* `Assoc.insert`: replaces the value of a key in its place, or adds a new key at the end;
* `Assoc.ofList`: inserts pairs one after another.

Main results:

* `Assoc.lookup_insert_self`, `Assoc.lookup_insert_of_ne`: what is found after an insertion;
* `Assoc.keys_insert_of_mem`, `Assoc.keys_insert_of_not_mem`: the keys after an insertion;
* `Assoc.nodup_keys_ofList`: no key occurs twice;
* `Assoc.keys_ofList`: the keys stand in the order in which each of them was inserted first;
* `Assoc.lookup_ofList`: of several values under one key the last one is found;
* `Assoc.ofList_eq_self_iff`: only pairs with distinct keys are all kept.
-/

set_option autoImplicit false

namespace Bibliograph.Assoc

variable {α β : Type}

/-- The pairs with `v` under the key `k`. -/
def insert [BEq α] (k : α) (v : β) : List (α × β) → List (α × β)
  | [] => [(k, v)]
  | p :: ps => if p.1 == k then (p.1, v) :: ps else p :: insert k v ps

/-- The pairs inserted from left to right: a later value takes the place of an earlier one. -/
def ofList [BEq α] (ps : List (α × β)) : List (α × β) :=
  ps.foldl (fun m p => insert p.1 p.2 m) []

/-- The keys in order. -/
def keys (m : List (α × β)) : List α :=
  m.map Prod.fst

section Lawful

variable [BEq α] [LawfulBEq α]

theorem lookup_insert_self (k : α) (v : β) (m : List (α × β)) :
    (insert k v m).lookup k = some v := by
  induction m with
  | nil => simp [insert]
  | cons p ps ih =>
    obtain ⟨a, b⟩ := p
    by_cases h : a = k
    · simp [insert, h]
    · have h' : (k == a) = false := by simpa using fun e => h e.symm
      simp [insert, h, List.lookup_cons, h', ih]

theorem lookup_insert_of_ne {k l : α} (h : l ≠ k) (v : β) (m : List (α × β)) :
    (insert k v m).lookup l = m.lookup l := by
  have hl : (l == k) = false := by simpa using h
  induction m with
  | nil => simp [insert, List.lookup_cons, hl]
  | cons p ps ih =>
    obtain ⟨a, b⟩ := p
    by_cases hp : a = k
    · subst hp
      simp [insert, List.lookup_cons, hl]
    · simp [insert, hp, List.lookup_cons, ih]

theorem keys_insert_of_mem {k : α} {m : List (α × β)} (h : k ∈ keys m) (v : β) :
    keys (insert k v m) = keys m := by
  induction m with
  | nil => simp [keys] at h
  | cons p ps ih =>
    by_cases hp : p.1 = k
    · simp [insert, hp, keys]
    · have : k ∈ keys ps := by
        rcases List.mem_cons.1 h with e | e
        · exact absurd e.symm hp
        · exact e
      simpa [insert, hp, keys] using ih this

theorem keys_insert_of_not_mem {k : α} {m : List (α × β)} (h : k ∉ keys m) (v : β) :
    keys (insert k v m) = keys m ++ [k] := by
  induction m with
  | nil => simp [insert, keys]
  | cons p ps ih =>
    have hp : p.1 ≠ k := fun e => h (by simp [keys, e])
    have hps : k ∉ keys ps := fun e => h (List.mem_cons_of_mem _ e)
    simpa [insert, hp, keys] using ih hps

theorem nodup_keys_insert {m : List (α × β)} (h : (keys m).Nodup) (k : α) (v : β) :
    (keys (insert k v m)).Nodup := by
  by_cases hk : k ∈ keys m
  · rwa [keys_insert_of_mem hk]
  · rw [keys_insert_of_not_mem hk, List.nodup_append]
    refine ⟨h, by simp, fun a ha b hb e => ?_⟩
    rw [List.mem_singleton.1 hb] at e
    exact hk (e ▸ ha)

theorem nodup_keys_ofList (ps : List (α × β)) : (keys (ofList ps)).Nodup := by
  suffices ∀ m : List (α × β), (keys m).Nodup →
      (keys (ps.foldl (fun m p => insert p.1 p.2 m) m)).Nodup from this [] (by simp [keys])
  induction ps with
  | nil => exact fun _ h => h
  | cons p ps ih => exact fun m h => ih _ (nodup_keys_insert h p.1 p.2)

theorem removeAll_append_singleton (ks ls : List α) (k : α) :
    ks.removeAll (ls ++ [k]) = (ks.removeAll ls).filter fun l => !l == k := by
  unfold List.removeAll
  rw [List.filter_filter]
  refine List.filter_congr fun l _ => Bool.eq_iff_iff.2 ?_
  simp [not_or, and_comm]

/-- Each key stands where it was inserted first. -/
theorem keys_ofList (ps : List (α × β)) : keys (ofList ps) = (keys ps).eraseDups := by
  suffices ∀ m : List (α × β), keys (ps.foldl (fun m p => insert p.1 p.2 m) m) =
      keys m ++ ((keys ps).removeAll (keys m)).eraseDups by
    simpa [keys, ofList] using this []
  induction ps with
  | nil => simp [keys, List.removeAll]
  | cons p ps ih =>
    intro m
    have hkeys : keys (p :: ps) = p.1 :: keys ps := rfl
    rw [List.foldl_cons, ih, hkeys, List.cons_removeAll]
    by_cases hp : p.1 ∈ keys m
    · rw [keys_insert_of_mem hp]
      simp [hp]
    · rw [keys_insert_of_not_mem hp, removeAll_append_singleton]
      simp [hp, List.eraseDups_cons]

theorem insert_of_not_mem {k : α} {m : List (α × β)} (h : k ∉ keys m) (v : β) :
    insert k v m = m ++ [(k, v)] := by
  induction m with
  | nil => rfl
  | cons p ps ih =>
    have hp : p.1 ≠ k := fun e => h (by simp [keys, e])
    have hps : k ∉ keys ps := fun e => h (List.mem_cons_of_mem _ e)
    simp [insert, hp, ih hps]

theorem lookup_foldl_insert (k : α) (ps m : List (α × β)) :
    (ps.foldl (fun m p => insert p.1 p.2 m) m).lookup k =
      (ps.reverse.lookup k).or (m.lookup k) := by
  induction ps generalizing m with
  | nil => simp
  | cons p ps ih =>
    rw [List.foldl_cons, ih, List.reverse_cons, List.lookup_append, Option.or_assoc]
    congr 1
    obtain ⟨l, v⟩ := p
    by_cases h : k = l
    · subst h
      simp [lookup_insert_self]
    · have h' : (k == l) = false := by simpa using h
      simp [lookup_insert_of_ne h, List.lookup_cons, h']

theorem mem_of_mem_insert {k : α} {v : β} {m : List (α × β)} {p : α × β}
    (h : p ∈ insert k v m) : p = (k, v) ∨ p ∈ m := by
  induction m with
  | nil => exact Or.inl (List.mem_singleton.1 h)
  | cons q qs ih =>
    rw [insert] at h
    split at h
    · rename_i hq
      rcases List.mem_cons.1 h with rfl | h
      · exact Or.inl (by rw [eq_of_beq hq])
      · exact Or.inr (List.mem_cons_of_mem _ h)
    · rcases List.mem_cons.1 h with rfl | h
      · exact Or.inr (List.mem_cons_self ..)
      · exact (ih h).imp_right (List.mem_cons_of_mem _)

theorem mem_of_mem_foldl_insert {ps m : List (α × β)} {p : α × β}
    (h : p ∈ ps.foldl (fun m p => insert p.1 p.2 m) m) : p ∈ ps ∨ p ∈ m := by
  induction ps generalizing m with
  | nil => exact Or.inr h
  | cons q qs ih =>
    rcases ih h with hqs | hm
    · exact Or.inl (List.mem_cons_of_mem _ hqs)
    · rcases mem_of_mem_insert hm with rfl | hm
      · exact Or.inl (List.mem_cons_self ..)
      · exact Or.inr hm

/-- Nothing is made up: each pair is one of those that were inserted. -/
theorem mem_of_mem_ofList {ps : List (α × β)} {p : α × β} (h : p ∈ ofList ps) : p ∈ ps :=
  (mem_of_mem_foldl_insert h).resolve_right List.not_mem_nil

/-- Of several values under one key the last one is found. -/
theorem lookup_ofList (k : α) (ps : List (α × β)) :
    (ofList ps).lookup k = ps.reverse.lookup k := by
  rw [ofList, lookup_foldl_insert]
  simp

theorem foldl_insert_of_nodup {ps m : List (α × β)} (h : (keys (m ++ ps)).Nodup) :
    ps.foldl (fun m p => insert p.1 p.2 m) m = m ++ ps := by
  induction ps generalizing m with
  | nil => simp
  | cons p ps ih =>
    have hp : p.1 ∉ keys m := by
      intro hmem
      rw [keys, List.map_append, List.nodup_append] at h
      exact h.2.2 p.1 hmem p.1 (by simp) rfl
    have happend : m ++ [p] ++ ps = m ++ p :: ps := by simp
    rw [List.foldl_cons, insert_of_not_mem hp, ih (happend ▸ h), happend]

/-- Only pairs with distinct keys are all kept. -/
theorem ofList_eq_self_iff (ps : List (α × β)) : ofList ps = ps ↔ (keys ps).Nodup := by
  constructor
  · intro h
    rw [← h]
    exact nodup_keys_ofList ps
  · intro h
    rw [ofList, foldl_insert_of_nodup (by simpa using h), List.nil_append]

end Lawful

end Bibliograph.Assoc
