import Bibliograph.Loading.Basic
import Bibliograph.Yaml.Decode

/-!
# Libraries in documents

Main definitions:

* `Loading.libraryOfDocument`: the library that a text writes.

Main results:

* `Loading.libraryOfDocument_of_null`: a text without data writes the empty library.
-/

set_option autoImplicit false

namespace Bibliograph.Loading

/-- The library that a text writes: a mapping between keys and entries, or nothing. -/
def libraryOfDocument (text : String) : Noted LoadFault Library :=
  match Yaml.decode text.toList with
  | .error (.problem p) => .fail (.unreadable p.message)
  | .error (.repeatedKey key line) =>
    if key.hasLiteral then do
      .note (.duplicateKey key line)
      .fail (.duplicateKey ⟨key.plain⟩)
    -- neither the notice nor the fault can show the key
    else .fail (.unreadable Number.unwritable)
  | .ok (.leaf .null, _) => .ok .empty
  | .ok (d, s) =>
    match s.mapping? d with
    | some pairs => libraryOf s pairs
    | none => .fail .noMapping

theorem libraryOfDocument_of_null {text : String} {s : Store}
    (h : Yaml.decode text.toList = .ok (.leaf .null, s)) :
    libraryOfDocument text = .ok .empty := by
  simp [libraryOfDocument, h]

end Bibliograph.Loading
