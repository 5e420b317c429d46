import Bibliograph.Entry.Basic

/-!
# Libraries

A library is a list of entries with distinct keys, in the order in which they were added.

Main definitions:

* `Library`: the libraries;
* `Library.push`: adds an entry, whose key must be new;
* `Library.get?`, `Library.erase`, `Library.nth?`: look up and remove by key, look up by position;
* `Library.ofEntries`: adds entries one after another;
* `Library.same`: equality of keys and contents in order.

Main results:

* `Library.push_eq_ok_iff`: what a push does, and when;
* `Library.get?_eq_some_iff`: looking up finds exactly the entries of the list;
* `Library.entries_erase`: removing takes out exactly the entry with the key.
-/

set_option autoImplicit false

namespace Bibliograph

/-- Entries with distinct keys, in the order in which they were added. -/
structure Library where
  entries : List Entry := []
  distinct : (entries.map Entry.key).Nodup := by simp

/-- The key of an entry to be added is taken. -/
structure DuplicateKey where
  key : String
  deriving Repr, DecidableEq

/-- What is said about a key that is taken. -/
def DuplicateKey.message (d : DuplicateKey) : String :=
  "duplicate key " ++ d.key

namespace Library

/-- The library without entries. -/
def empty : Library := {}

/-- The keys in order. -/
def keys (l : Library) : List String :=
  l.entries.map Entry.key

/-- The number of entries. -/
def size (l : Library) : Nat :=
  l.entries.length

/-- Whether there are no entries. -/
def isEmpty (l : Library) : Bool :=
  l.entries.isEmpty

/-- Whether an entry has the key. -/
def contains (l : Library) (key : String) : Bool :=
  l.keys.contains key

/-- The entry with the key. -/
def get? (l : Library) (key : String) : Option Entry :=
  l.entries.find? fun e => e.key == key

/-- The entry at a position from zero on. -/
def nth? (l : Library) (n : Int) : Option Entry :=
  if n < 0 then none else l.entries[n.toNat]?

/-- The library with one more entry at the end. -/
def push (l : Library) (e : Entry) : Except DuplicateKey Library :=
  if h : e.key ∈ l.keys then .error ⟨e.key⟩
  else .ok {
    entries := l.entries ++ [e]
    distinct := by
      rw [List.map_append, List.nodup_append]
      refine ⟨l.distinct, by simp, fun a ha b hb hab => h ?_⟩
      simp only [List.map_cons, List.map_nil, List.mem_singleton] at hb
      exact (hab.trans hb) ▸ ha }

/-- The library without the entry with the key. -/
def erase (l : Library) (key : String) : Library where
  entries := l.entries.filter fun e => e.key != key
  distinct := List.Nodup.sublist (List.filter_sublist.map _) l.distinct

/-- The library with further entries. -/
def pushAll (l : Library) : List Entry → Except DuplicateKey Library
  | [] => .ok l
  | e :: es => do (← l.push e).pushAll es

/-- The library of some entries. -/
def ofEntries (es : List Entry) : Except DuplicateKey Library :=
  empty.pushAll es

/-- Whether two libraries have the same keys in the same order with equal entries. -/
def same (l m : Library) : Bool :=
  l.keys == m.keys && Entry.sameAll l.entries m.entries

/-- What is shown for a library. -/
def plain (l : Library) : String :=
  "Library(" ++ Number.decimal l.size ++ " entries)"

/-! ### The list view -/

@[simp] theorem entries_empty : empty.entries = [] := rfl

theorem push_eq_ok_iff {l m : Library} {e : Entry} :
    l.push e = .ok m ↔ e.key ∉ l.keys ∧ m.entries = l.entries ++ [e] := by
  cases m with
  | mk entries distinct =>
    unfold push
    split
    · simp_all
    · rename_i h
      simp only [Except.ok.injEq, mk.injEq]
      exact ⟨fun e => ⟨h, e.symm⟩, fun e => e.2.symm⟩

theorem push_eq_error_iff {l : Library} {e : Entry} {d : DuplicateKey} :
    l.push e = .error d ↔ e.key ∈ l.keys ∧ d = ⟨e.key⟩ := by
  unfold push
  split <;> simp_all [eq_comm]

theorem get?_eq_some_iff {l : Library} {key : String} {e : Entry} :
    l.get? key = some e ↔ e ∈ l.entries ∧ e.key = key := by
  constructor
  · intro h
    exact ⟨List.mem_of_find?_eq_some h, by simpa using List.find?_some h⟩
  · rintro ⟨he, rfl⟩
    have distinct := l.distinct
    unfold get?
    generalize l.entries = es at he distinct
    induction es with
    | nil => simp at he
    | cons d ds ih =>
      simp only [List.map_cons, List.nodup_cons] at distinct
      rcases List.mem_cons.1 he with rfl | he
      · simp
      · have : d.key ≠ e.key := fun h => distinct.1 (h ▸ List.mem_map_of_mem he)
        rw [List.find?_cons_of_neg (by simpa using this)]
        exact ih he distinct.2

@[simp] theorem entries_erase (l : Library) (key : String) :
    (l.erase key).entries = l.entries.filter fun e => e.key != key := rfl

end Library

end Bibliograph
