import Bibliograph.Entry.Basic

/-!
# Type specifications

A specification says which type an entry may have and, for each parent that it requires, what that
parent must be.  Every required parent has to be met by exactly one of the entry's parents that are
not taken by an earlier requirement.  Specifications find the parent that is cited along with an
entry.

Main definitions:

* `ModalityKind`, `TypeModality`: the acceptable types at one place, any types under any kind;
* `TypeModality.any`, `TypeModality.specific`, `TypeModality.alternate`, `TypeModality.disallowed`:
  the modalities with the types that their kind asks for;
* `TypeSpec`: the specifications;
* `TypeSpec.check`: the positions of the parents that meet the requirements;
* `TypeSpec.canonicalSpecs`, `Entry.canonicalParent`: the parent to cite along with an entry.

Main results:

* `TypeModality.accepts_any`, `TypeModality.accepts_specific_iff`,
  `TypeModality.accepts_alternate_iff`, `TypeModality.accepts_disallowed_iff`: what each modality
  accepts.
-/

set_option autoImplicit false

namespace Bibliograph

/-- The ways in which types are named that are acceptable, or are not. -/
inductive ModalityKind where
  | any
  | specific
  | alternate
  | disallowed
  deriving Repr, DecidableEq

/-- The word for the kind of a modality. -/
def ModalityKind.word : ModalityKind → String
  | any => "any"
  | specific => "specific"
  | alternate => "alternate"
  | disallowed => "disallowed"

/-- The types that are acceptable at one place. -/
structure TypeModality where
  kind : ModalityKind
  types : List EntryType := []
  deriving Repr, DecidableEq

namespace TypeModality

/-- Every type is acceptable. -/
def any : TypeModality where
  kind := .any

/-- One type is acceptable. -/
def specific (type : EntryType) : TypeModality where
  kind := .specific
  types := [type]

/-- Several types are acceptable. -/
def alternate (types : List EntryType) : TypeModality where
  kind := .alternate
  types

/-- All types but these are acceptable. -/
def disallowed (types : List EntryType) : TypeModality where
  kind := .disallowed
  types

/-- Whether a type is acceptable. -/
def accepts (m : TypeModality) (t : EntryType) : Bool :=
  match m.kind with
  | .any => true
  | .disallowed => !m.types.contains t
  | .specific => m.types.contains t
  | .alternate => m.types.contains t

@[simp] theorem accepts_any (t : EntryType) : any.accepts t = true := rfl

theorem accepts_specific_iff (s t : EntryType) : (specific s).accepts t ↔ t = s := by
  simp [accepts, specific]

theorem accepts_alternate_iff (ts : List EntryType) (t : EntryType) :
    (alternate ts).accepts t ↔ t ∈ ts := by
  simp [accepts, alternate]

theorem accepts_disallowed_iff (ts : List EntryType) (t : EntryType) :
    (disallowed ts).accepts t ↔ t ∉ ts := by
  simp [accepts, disallowed]

/-- A word in capitals. -/
def capitals (s : String) : String :=
  String.ofList (s.toList.map Char.toUpper)

/-- The full description of a member of a named family of words. -/
def describeMember (family word : String) : String :=
  "<" ++ family ++ "." ++ capitals word ++ ": " ++ Text.quoted word ++ ">"

/-- The full description of a modality, as mismatches show it. -/
def describe (m : TypeModality) : String :=
  "TypeModality(kind=" ++ describeMember "ModalityKind" m.kind.word ++ ", types=" ++
    Value.tupleText (m.types.map fun t => describeMember "EntryType" t.name) ++ ")"

end TypeModality

/-- The acceptable types of an entry, and a specification for each parent that it needs. -/
inductive TypeSpec where
  | spec (here : TypeModality) (parents : List TypeSpec)
  deriving Repr

namespace TypeSpec

/-- The acceptable types of the entry itself. -/
def here : TypeSpec → TypeModality
  | spec m _ => m

/-- The specifications of the required parents. -/
def parents : TypeSpec → List TypeSpec
  | spec _ ps => ps

/-- Why an entry does not meet a specification. -/
inductive Mismatch where
  | typeNotAccepted (key : String) (type : EntryType)
  | parentsQualify (key : String) (count : Nat) (modality : TypeModality)
  deriving Repr, DecidableEq

/-- What is said about the mismatch. -/
def Mismatch.message : Mismatch → String
  | typeNotAccepted key type => key ++ ": type " ++ type.name ++ " not accepted"
  | parentsQualify key count modality =>
    key ++ ": " ++ Number.decimal count ++ " parents qualify for " ++ modality.describe

/-- The positions of the items with a property that are not taken. -/
def freePositions (taken : List Nat) (p : Entry → Bool) (es : List Entry) : List Nat :=
  es.zipIdx.filterMap fun (e, i) => if i ∉ taken ∧ p e then some i else none

mutual

/-- The positions of the entry's parents that meet the required parents, in the order of the
requirements. -/
def check (e : Entry) : TypeSpec → Except Mismatch (List Nat)
  | spec here parents =>
    if here.accepts e.type then checkParents e [] parents
    else .error (.typeNotAccepted e.key e.type)

/-- The positions that meet the remaining requirements, behind those that are taken. -/
def checkParents (e : Entry) (taken : List Nat) : List TypeSpec → Except Mismatch (List Nat)
  | [] => .ok taken
  | s :: rest =>
    match freePositions taken (fun p => (check p s).isOk) e.parents with
    | [i] => checkParents e (taken ++ [i]) rest
    | found => .error (.parentsQualify e.key found.length s.here)

end

/-- A requirement on an entry and on one parent. -/
def singleParent (here parent : TypeModality) : TypeSpec :=
  spec here [spec parent []]

/-- The specifications that name the parent to cite, in the order in which they are tried. -/
def canonicalSpecs : List TypeSpec :=
  [ singleParent (.specific .anthos) (.specific .anthology)
  , singleParent (.specific .article) (.specific .periodical)
  , singleParent (.specific .entry) (.alternate [.reference, .repository])
  , singleParent .any (.specific .proceedings)
  , singleParent (.alternate [.chapter, .scene, .web]) .any ]

end TypeSpec

/-- The parent to cite along with an entry: the first one of the first specification that the entry
meets and that requires parents. -/
def Entry.canonicalParent (e : Entry) (specs : List TypeSpec) : Option Entry :=
  match specs with
  | [] => none
  | s :: rest =>
    match s.check e with
    | .ok (i :: _) => e.parents[i]?
    | _ => e.canonicalParent rest

end Bibliograph
