import Bibliograph.Library
import Bibliograph.Proofs.Entry.Equality
import Bibliograph.Proofs.Sequence
import Mathlib.Data.List.Nodup

/-!
# Libraries as lists of keys and entries

Whatever is asked of a library can be told from one list, that of its keys with their entries.

Main definitions:

* `Library.items`: the entries with their keys, in order;
* `Library.Kept`: no key occurs twice, and every entry is under its own key.

Main results:

* `Library.kept_items`: the list of a library is kept in this way;
* `Library.Kept.filter_of_eq`: without the pair of one key the others are left in their order;
* `Library.get?_eq_some_iff_mem`, `Library.get?_eq_none_iff`: what is found under a key;
* `Library.items_erase_of_eq`: removing takes one pair out of the list;
* `Library.ofEntries_eq_ok_iff`, `Library.ofEntries_eq_error_iff`: which entries make a library, and
  which key is refused otherwise;
* `Library.same_iff`: libraries are equal exactly if their lists are, pair by pair.
-/

set_option autoImplicit false

namespace Bibliograph.Library

variable {l m : Library} {es : List Entry}

/-- The entries with their keys, in order. -/
def items (l : Library) : List (String × Entry) :=
  l.entries.map fun e => (e.key, e)

/-- No key occurs twice, and every entry is under its own key. -/
structure Kept (ps : List (String × Entry)) : Prop where
  nodup : (Assoc.keys ps).Nodup
  own : ∀ p ∈ ps, p.1 = p.2.key

namespace Kept

variable {ps : List (String × Entry)} {key : String}

theorem entry_eq (h : Kept ps) {d e : Entry} (hd : (key, d) ∈ ps) (he : (key, e) ∈ ps) : d = e := by
  have hpair := List.inj_on_of_nodup_map h.nodup hd he rfl
  exact congrArg Prod.snd hpair

/-- Without the pair of a key the others are left in their order. -/
theorem filter_of_eq (hkept : Kept ps) {e : Entry} {before after : List (String × Entry)}
    (h : ps = before ++ (key, e) :: after) :
    (ps.filter fun p => p.1 != key) = before ++ after := by
  have hnodup := hkept.nodup
  rw [h, Assoc.keys, List.map_append, List.map_cons, List.nodup_middle, List.nodup_cons,
    ← List.map_append] at hnodup
  have hother : ∀ p ∈ before ++ after, (p.1 != key) = true := by
    intro p hp
    rw [bne_iff_ne]
    intro hkey
    exact hnodup.1 (List.mem_map.2 ⟨p, hp, hkey⟩)
  have hself : ((key, e).1 != key) = false := bne_self_eq_false key
  rw [h, List.filter_append, List.filter_cons, hself, if_neg Bool.false_ne_true,
    ← List.filter_append, List.filter_eq_self.2 hother]

end Kept

@[simp] theorem keys_items (l : Library) : Assoc.keys l.items = l.keys := by
  simp [Assoc.keys, items, keys]

@[simp] theorem length_items (l : Library) : l.items.length = l.size :=
  List.length_map _

@[simp] theorem map_snd_items (l : Library) : l.items.map Prod.snd = l.entries := by
  rw [items, List.map_map]
  exact List.map_id l.entries

theorem mem_items_iff {key : String} {e : Entry} :
    (key, e) ∈ l.items ↔ e ∈ l.entries ∧ e.key = key := by
  simp only [items, List.mem_map, Prod.mk.injEq]
  constructor
  · rintro ⟨d, hd, rfl, rfl⟩
    exact ⟨hd, rfl⟩
  · rintro ⟨he, hkey⟩
    exact ⟨e, he, hkey, rfl⟩

theorem kept_items (l : Library) : Kept l.items where
  nodup := by
    rw [keys_items]
    exact l.distinct
  own := by
    rintro ⟨key, e⟩ hp
    exact (mem_items_iff.1 hp).2.symm

/-! ### Looking up -/

theorem get?_eq_some_iff_mem {key : String} {e : Entry} :
    l.get? key = some e ↔ (key, e) ∈ l.items := by
  rw [get?_eq_some_iff, mem_items_iff]

theorem get?_eq_none_iff {key : String} : l.get? key = none ↔ key ∉ Assoc.keys l.items := by
  rw [keys_items]
  simp [get?, keys]

theorem nth?_natCast (n : Nat) : l.nth? n = l.entries[n]? := by
  rw [nth?, if_neg (Int.not_lt.2 (Int.natCast_nonneg n)), Int.toNat_natCast]

/-- A position that is negative or behind the last entry has none. -/
theorem nth?_eq_none {n : Int} (h : n < 0 ∨ (l.size : Int) ≤ n) : l.nth? n = none := by
  unfold nth?
  rcases h with h | h
  · rw [if_pos h]
  · have hsize : l.entries.length ≤ n.toNat := by
      unfold size at h
      omega
    rw [List.getElem?_eq_none hsize, ite_self]

/-! ### Pushing and removing -/

theorem items_of_push {e : Entry} (h : l.push e = .ok m) : m.items = l.items ++ [(e.key, e)] := by
  rw [items, (push_eq_ok_iff.1 h).2, List.map_append]
  rfl

theorem items_erase (l : Library) (key : String) :
    (l.erase key).items = l.items.filter fun p => p.1 != key := by
  rw [items, items, entries_erase, List.filter_map]
  rfl

/-- Removing takes the pair with the key out and leaves the others in their order. -/
theorem items_erase_of_eq {key : String} {e : Entry} {before after : List (String × Entry)}
    (h : l.items = before ++ (key, e) :: after) : (l.erase key).items = before ++ after := by
  rw [items_erase]
  exact (kept_items l).filter_of_eq h

theorem items_erase_of_not_mem {key : String} (h : key ∉ Assoc.keys l.items) :
    (l.erase key).items = l.items := by
  rw [items_erase, List.filter_eq_self]
  intro p hp
  rw [bne_iff_ne]
  intro hkey
  exact h (List.mem_map.2 ⟨p, hp, hkey⟩)

/-! ### Libraries of some entries -/

theorem pushAll_append (l : Library) (ds es : List Entry) :
    l.pushAll (ds ++ es) = l.pushAll ds >>= fun k => k.pushAll es := by
  induction ds generalizing l with
  | nil => rfl
  | cons d ds ih =>
      rw [List.cons_append, pushAll, pushAll]
      cases l.push d with
      | error f => rfl
      | ok k => exact ih k

theorem pushAll_eq_ok_iff : l.pushAll es = .ok m ↔ m.entries = l.entries ++ es := by
  induction es generalizing l with
  | nil =>
      cases l
      cases m
      simp [pushAll, eq_comm]
  | cons e es ih =>
      rw [pushAll, bind_eq_ok_iff]
      constructor
      · rintro ⟨k, hk, h⟩
        rw [ih.1 h, (push_eq_ok_iff.1 hk).2, List.append_assoc]
        rfl
      · intro h
        -- the keys of the library at the end are distinct, so this one was not there before
        have hnew : e.key ∉ l.keys := by
          have hdistinct := m.distinct
          rw [h, List.map_append, List.nodup_append] at hdistinct
          intro hkey
          exact hdistinct.2.2 e.key hkey e.key (List.mem_cons_self ..) rfl
        cases hk : l.push e with
        | error f => exact absurd (push_eq_error_iff.1 hk).1 hnew
        | ok k =>
            refine ⟨k, rfl, ih.2 ?_⟩
            rw [h, (push_eq_ok_iff.1 hk).2, List.append_assoc]
            rfl

theorem pushAll_eq_error_iff {d : DuplicateKey} :
    l.pushAll es = .error d ↔ ∃ before e after, es = before ++ e :: after ∧
      ((l.entries ++ before).map Entry.key).Nodup ∧ e.key ∈ (l.entries ++ before).map Entry.key ∧
      d = ⟨e.key⟩ := by
  constructor
  · intro h
    induction es generalizing l with
    | nil => cases h
    | cons e es ih =>
        rw [pushAll] at h
        cases hk : l.push e with
        | error f =>
            rw [hk] at h
            cases h
            obtain ⟨htaken, hd⟩ := push_eq_error_iff.1 hk
            refine ⟨[], e, es, rfl, ?_, ?_, hd⟩
            · simpa using l.distinct
            · simpa [keys] using htaken
        | ok k =>
            rw [hk] at h
            obtain ⟨before, d, after, hes, hnodup, htaken, hd⟩ := ih h
            rw [(push_eq_ok_iff.1 hk).2, List.append_assoc] at hnodup htaken
            exact ⟨e :: before, d, after, by rw [hes]; rfl, hnodup, htaken, hd⟩
  · rintro ⟨before, e, after, rfl, hnodup, htaken, rfl⟩
    have hk : l.pushAll before = .ok ⟨l.entries ++ before, hnodup⟩ := pushAll_eq_ok_iff.2 rfl
    rw [pushAll_append, hk]
    change pushAll _ (e :: after) = _
    rw [pushAll, push_eq_error_iff.2 ⟨htaken, rfl⟩]
    rfl

/-- Some entries make a library exactly if it has these entries in this order, under their keys. -/
theorem ofEntries_eq_ok_iff :
    ofEntries es = .ok m ↔ m.items = es.map fun e => (e.key, e) := by
  rw [ofEntries, pushAll_eq_ok_iff, entries_empty, List.nil_append]
  constructor
  · intro h
    rw [items, h]
  · intro h
    rw [← map_snd_items, h, List.map_map]
    exact List.map_id es

/-- Otherwise the first key that occurs again is refused. -/
theorem ofEntries_eq_error_iff {d : DuplicateKey} :
    ofEntries es = .error d ↔ ∃ before e after, es = before ++ e :: after ∧
      (before.map Entry.key).Nodup ∧ e.key ∈ before.map Entry.key ∧ d = ⟨e.key⟩ := by
  rw [ofEntries, pushAll_eq_error_iff, entries_empty]
  simp only [List.nil_append]

/-! ### Equality -/

/-- **Libraries are equal exactly if their lists are**: the same keys in the same order with equal
entries. -/
theorem same_iff :
    l.same m = true ↔
      List.Forall₂ (fun p q => p.1 = q.1 ∧ p.2.same q.2 = true) l.items m.items := by
  rw [same, Bool.and_eq_true, beq_iff_eq, Entry.sameAll_iff, keys, keys, items, items,
    List.forall₂_map_left_iff, List.forall₂_map_right_iff]
  generalize l.entries = ds
  generalize m.entries = es
  induction ds generalizing es with
  | nil => cases es <;> simp
  | cons d ds ih =>
      cases es with
      | nil => simp
      | cons e es =>
          simp only [List.map_cons, List.cons.injEq, List.forall₂_cons, ← ih]
          constructor
          · rintro ⟨⟨hkey, hkeys⟩, hsame, hrest⟩
            exact ⟨⟨hkey, hsame⟩, hkeys, hrest⟩
          · rintro ⟨⟨hkey, hsame⟩, hkeys, hrest⟩
            exact ⟨⟨hkey, hkeys⟩, hsame, hrest⟩

end Bibliograph.Library
