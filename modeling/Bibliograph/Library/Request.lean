import Bibliograph.Library
import Bibliograph.Run

/-!
# Requests to a library

A library is used by one request after another.  Each request has a reply; only a push and a removal
leave another library behind.

Main definitions:

* `Library.Request`, `Library.Reply`: what is asked of a library, and what it says;
* `Library.answer`: the reply to one request, and the library after it;
* `Library.run`: the replies to several requests in turn, and the library at the end.

Main results:

* `Library.answer_push_of_taken`, `Library.exists_answer_push_of_new`: a push is refused and changes
  nothing, or it is accepted, as its key is taken or new.
-/

set_option autoImplicit false

namespace Bibliograph.Library

/-- No entry has the key that an entry was required for. -/
structure MissingKey where
  key : String
  deriving Repr, DecidableEq

/-- What is said about a key that no entry has. -/
def MissingKey.message (m : MissingKey) : String :=
  (Value.text m.key).literal

/-- What is asked of a library. -/
inductive Request where
  | push (e : Entry)
  | remove (key : String)
  /-- The entry with a key, if there is one. -/
  | get (key : String)
  /-- The entry with a key, which must be there. -/
  | index (key : String)
  | contains (key : String)
  | nth (n : Int)
  | keys
  | iter
  | size
  | isEmpty
  | same (other : Library)

/-- What a library says. -/
inductive Reply where
  | done
  | refused (d : DuplicateKey)
  | given (e : Option Entry)
  | entry (e : Entry)
  | missing (m : MissingKey)
  | holds (b : Bool)
  | number (n : Nat)
  | keys (ks : List String)
  | entries (es : List Entry)
  deriving Repr

/-- The reply to a request, and the library after it. -/
def answer (l : Library) : Request → Reply × Library
  | .push e =>
    match l.push e with
    | .ok m => (.done, m)
    | .error d => (.refused d, l)
  | .remove key => (.given (l.get? key), l.erase key)
  | .get key => (.given (l.get? key), l)
  | .index key =>
    match l.get? key with
    | some e => (.entry e, l)
    | none => (.missing ⟨key⟩, l)
  | .contains key => (.holds (l.contains key), l)
  | .nth n => (.given (l.nth? n), l)
  | .keys => (.keys l.keys, l)
  | .iter => (.entries l.entries, l)
  | .size => (.number l.size, l)
  | .isEmpty => (.holds l.isEmpty, l)
  | .same other => (.holds (l.same other), l)

/-- Requests with their replies, in order. -/
abbrev History := List (Request × Reply)

/-- The replies to requests that are made one after another, and the library at the end. -/
def run (l : Library) (rs : List Request) : History × Library :=
  runAll answer l rs

theorem answer_push_of_taken {l : Library} {e : Entry} (h : e.key ∈ l.keys) :
    l.answer (.push e) = (.refused ⟨e.key⟩, l) := by
  rw [answer, push_eq_error_iff.2 ⟨h, rfl⟩]

theorem exists_answer_push_of_new {l : Library} {e : Entry} (h : e.key ∉ l.keys) :
    ∃ m, l.push e = .ok m ∧ l.answer (.push e) = (.done, m) := by
  cases hpush : l.push e with
  | ok m =>
    refine ⟨m, rfl, ?_⟩
    rw [answer, hpush]
  | error d => exact absurd (push_eq_error_iff.1 hpush).1 h

theorem run_cons (l : Library) (r : Request) (rs : List Request) :
    l.run (r :: rs) =
      ((r, (l.answer r).1) :: ((l.answer r).2.run rs).1, ((l.answer r).2.run rs).2) :=
  runAll_cons answer l r rs

end Bibliograph.Library
