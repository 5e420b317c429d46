import Bibliograph.Run
import Bibliograph.Selector.Parse

/-!
# Sessions

A session keeps the queries of literals, so that a literal is read once and every further use gives
the very same query.  Queries that are not literals are made anew each time.  A text that is no
selector is not kept.

Main definitions:

* `Selector.Session`: the literals so far;
* `Selector.Handle`: a query with the number that tells it apart from the others of the session;
* `Selector.Session.select`, `Selector.Session.parse`: the queries of literals and other texts;
* `Selector.Session.run`: the replies to several calls in turn, and the session at the end.

Main results:

* `Selector.Session.select_of_known`: a known literal gives the query that is kept, and changes
  nothing;
* `Selector.Session.select_of_new`: a new literal is read, and kept if it is a selector.
-/

set_option autoImplicit false

namespace Bibliograph.Selector

/-- A query, told apart from all others of its session by a number. -/
structure Handle where
  number : Nat
  query : Query
  deriving Repr, DecidableEq

/-- The number of the next query, and the literals with their queries. -/
structure Session where
  next : Nat := 0
  literals : List (String × Handle) := []
  deriving Repr, DecidableEq

namespace Session

/-- A new query. -/
def make (s : Session) (q : Query) : Handle × Session :=
  (⟨s.next, q⟩, { s with next := s.next + 1 })

/-- A new query for a text. -/
def parse (s : Session) (source : String) : Except SelectorError Handle × Session :=
  match Query.parse source with
  | .error e => (.error e, s)
  | .ok q =>
    let (h, s) := s.make q
    (.ok h, s)

/-- The query of a literal. -/
def select (s : Session) (literal : String) : Except SelectorError Handle × Session :=
  match s.literals.lookup literal with
  | some h => (.ok h, s)
  | none =>
    match s.parse literal with
    | (.error e, s) => (.error e, s)
    | (.ok h, s) => (.ok h, { s with literals := (literal, h) :: s.literals })

theorem select_of_known {s : Session} {literal : String} {h : Handle}
    (known : s.literals.lookup literal = some h) : s.select literal = (.ok h, s) := by
  simp [select, known]

theorem select_of_new {s : Session} {literal : String} (new : s.literals.lookup literal = none) :
    s.select literal = match Query.parse literal with
      | .error e => (.error e, s)
      | .ok q => (.ok ⟨s.next, q⟩, ⟨s.next + 1, (literal, ⟨s.next, q⟩) :: s.literals⟩) := by
  unfold select parse
  rw [new]
  cases Query.parse literal <;> rfl

/-! ### Calls -/

/-- What is asked of a session. -/
inductive Call where
  | select (literal : String)
  | parse (source : String)
  deriving Repr, DecidableEq

/-- The text of a call. -/
def Call.text : Call → String
  | select literal => literal
  | parse source => source

/-- What a session says. -/
abbrev Reply := Except SelectorError Handle

/-- The reply to a call, and the session after it. -/
def call (s : Session) : Call → Reply × Session
  | .select literal => s.select literal
  | .parse source => s.parse source

/-- Calls with their replies, in order. -/
abbrev History := List (Call × Reply)

/-- The replies to calls that are made one after another, and the session at the end. -/
def run (s : Session) (calls : List Call) : History × Session :=
  runAll call s calls

end Session

end Bibliograph.Selector
