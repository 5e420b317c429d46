import Bibliograph.Entry.Basic

/-!
# Bindings

Main definitions:

* `Search.Bindings`: the entries that a match has bound to names;
* `Search.Bindings.ofPairs`: of several entries bound to one name the last one stays, in the place
  of the first;
* `Search.Bindings.Holds`: the bindings are just those of some pairs.

Main results:

* `Search.Bindings.holds_ofPairs`: names and entries of the bindings of pairs.
-/

set_option autoImplicit false

namespace Bibliograph.Search

/-- Entries by name, in order. -/
structure Bindings where
  pairs : List (String × Entry) := []
  distinct : (Assoc.keys pairs).Nodup := by simp [Assoc.keys]

namespace Bindings

/-- The bindings of pairs of which a later one replaces an earlier one of the same name. -/
def ofPairs (ps : List (String × Entry)) : Bindings where
  pairs := Assoc.ofList ps
  distinct := Assoc.nodup_keys_ofList ps

/-- The entry bound to a name. -/
def get? (b : Bindings) (name : String) : Option Entry :=
  b.pairs.lookup name

/-- The names in order. -/
def names (b : Bindings) : List String :=
  Assoc.keys b.pairs

/-- The number of names. -/
def size (b : Bindings) : Nat :=
  b.pairs.length

/-- What is shown for bindings. -/
def plain (b : Bindings) : String :=
  let shown := b.pairs.map fun p => p.1 ++ "=" ++ p.2.key ++ ":" ++ p.2.type.name
  "Bindings(" ++ ", ".intercalate shown ++ ")"

/-- The bindings have the names of the pairs, each where it occurs first, and under a name stands
the entry of the last pair with this name. -/
structure Holds (b : Bindings) (ps : List (String × Entry)) : Prop where
  names_eq : b.names = (ps.map Prod.fst).eraseDups
  get?_eq : ∀ name, b.get? name = ps.reverse.lookup name

theorem holds_ofPairs (ps : List (String × Entry)) : (ofPairs ps).Holds ps where
  names_eq := Assoc.keys_ofList ps
  get?_eq name := Assoc.lookup_ofList name ps

end Bindings

end Bibliograph.Search
