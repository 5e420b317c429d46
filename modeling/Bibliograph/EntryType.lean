import Bibliograph.Text.Blank
import Bibliograph.Text.Case
import Bibliograph.Text.Quoted

/-!
# Entry types

The closed set of kinds of work that an entry can be.

Main definitions:

* `EntryType`: the kinds;
* `EntryType.all`: the kinds in the order of their declaration;
* `EntryType.name`, `EntryType.ofName?`: the name of a kind, and the kind of a name;
* `EntryType.ofText`: reads a name, whatever its case and the blanks around it;
* `EntryType.defaultParent`: the kind of an entry's container where none is given.

Main results:

* `EntryType.mem_all`: the list holds every kind;
* `EntryType.ofName?_name`, `EntryType.name_of_ofName?`: names and kinds correspond.
-/

set_option autoImplicit false

namespace Bibliograph

/-- The kind of a work. -/
inductive EntryType where
  | article | chapter | entry | anthos | report | thesis | web | scene | artwork | patent
  | case | newspaper | legislation | manuscript | post | misc | performance | periodical
  | proceedings | book | blog | reference | conference | anthology | repository | thread
  | video | audio | exhibition
  deriving Repr, DecidableEq, Inhabited

namespace EntryType

/-- All kinds, in the order of their declaration. -/
def all : List EntryType :=
  [article, chapter, entry, anthos, report, thesis, web, scene, artwork, patent, case, newspaper,
    legislation, manuscript, post, misc, performance, periodical, proceedings, book, blog,
    reference, conference, anthology, repository, thread, video, audio, exhibition]

theorem mem_all (t : EntryType) : t ∈ all := by
  cases t <;> decide

/-- The name of a kind. -/
def name : EntryType → String
  | article => "article"
  | chapter => "chapter"
  | entry => "entry"
  | anthos => "anthos"
  | report => "report"
  | thesis => "thesis"
  | web => "web"
  | scene => "scene"
  | artwork => "artwork"
  | patent => "patent"
  | case => "case"
  | newspaper => "newspaper"
  | legislation => "legislation"
  | manuscript => "manuscript"
  | post => "post"
  | misc => "misc"
  | performance => "performance"
  | periodical => "periodical"
  | proceedings => "proceedings"
  | book => "book"
  | blog => "blog"
  | reference => "reference"
  | conference => "conference"
  | anthology => "anthology"
  | repository => "repository"
  | thread => "thread"
  | video => "video"
  | audio => "audio"
  | exhibition => "exhibition"

/-- The kind with this name. -/
def ofName? (s : String) : Option EntryType :=
  all.find? fun t => t.name == s

theorem ofName?_name (t : EntryType) : ofName? t.name = some t := by
  cases t <;> decide

theorem name_of_ofName? {s : String} {t : EntryType} (h : ofName? s = some t) : t.name = s := by
  simpa using List.find?_some h

/-- Names in text may have blanks around them and any case. -/
def normalName (s : String) : String :=
  String.ofList (Text.lower (Text.trim s.toList))

/-- A text that names no kind, in its normal form. -/
structure Unknown where
  normal : String
  deriving Repr, DecidableEq

/-- What is said about a text that names no kind. -/
def Unknown.message (u : Unknown) : String :=
  Text.quoted u.normal ++ " is not a valid EntryType"

/-- Reads the name of a kind. -/
def ofText (s : String) : Except Unknown EntryType :=
  match ofName? (normalName s) with
  | some t => .ok t
  | none => .error ⟨normalName s⟩

/-- The kind of a parent that is declared without one. -/
def defaultParent : EntryType → EntryType
  | article => periodical
  | chapter => book
  | entry => reference
  | anthos => anthology
  | web => web
  | scene => video
  | case => reference
  | post => post
  | thread => thread
  | _ => misc

end EntryType

end Bibliograph
