import Bibliograph.CommandLine.Arguments
import Bibliograph.Json
import Bibliograph.Search.Solve
import Bibliograph.TypeSpec

/-!
# Reports

A title with an integer that has too many digits has no text, and then nothing can be said about
its entry.

Main definitions:

* `CommandLine.describe`: what is said about an entry;
* `CommandLine.item`: what is said about a selected entry;
* `CommandLine.reportText`: the text of a report, one item per line or all as one list.

Main results:

* `CommandLine.reportText_nil`: without items there are no lines.
-/

set_option autoImplicit false

namespace Bibliograph.CommandLine

/-- Key and type of an entry, and its title if that is neither missing nor empty. -/
def describe (e : Entry) : Option Json := do
  let title ← match e.get? "title" with
    | some v =>
      if v.isTruthy then if v.hasPlain then some [("title", Json.text v.plain)] else none
      else some []
    | none => some []
  return .object ([("key", .text e.key), ("type", .text e.type.name)] ++ title)

/-- The fields of an object. -/
def fieldsOf : Json → List (String × Json)
  | .object fields => fields
  | _ => []

/-- A selected entry, with the entries that are bound to names and with its canonical parent if
these are asked for. -/
def item (o : Options) (e : Entry) (b : Search.Bindings) : Option Json := do
  let about ← describe e
  let bindings ← if o.bindings then do
      let bound ← b.pairs.mapM fun p => (describe p.2).map fun j => (p.1, j)
      some [("bindings", Json.object bound)]
    else some []
  let canonical ← if o.canonical then
      match e.canonicalParent TypeSpec.canonicalSpecs with
      | some parent => (describe parent).map fun j => [("canonical", j)]
      | none => some [("canonical", .null)]
    else some []
  return .object (fieldsOf about ++ bindings ++ canonical)

/-- The items as one list, or each on a line of its own. -/
def reportText (o : Options) (items : List Json) : String :=
  if o.prettyPrint then (Json.list items).write (some 2) 0 ++ "\n"
  else String.join (items.map fun j => j.write none 0 ++ "\n")

theorem reportText_nil {o : Options} (h : o.prettyPrint = false) : reportText o [] = "" := by
  simp [reportText, h]

end Bibliograph.CommandLine
