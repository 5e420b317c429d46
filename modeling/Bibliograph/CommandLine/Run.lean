import Bibliograph.CommandLine.Report
import Bibliograph.Loading.Document
import Bibliograph.Selector.Parse

/-!
# Runs

Main definitions:

* `CommandLine.ReadFault`: why there is no text of a library file;
* `CommandLine.Outcome`: what a run leaves behind;
* `CommandLine.Request.answer`: the outcome of a request.

Main results:

* `CommandLine.Request.answer_of_bad_selector`: a faulty selector is noticed before the library.
-/

set_option autoImplicit false

namespace Bibliograph.CommandLine

/-- Why there is no text of a library file. -/
inductive ReadFault where
  | missing
  | denied
  | notDirectory
  | isDirectory
  deriving Repr, DecidableEq

/-- The number under which systems know the fault, and what it means. -/
def ReadFault.reason : ReadFault → Nat × String
  | missing => (2, "No such file or directory")
  | denied => (13, "Permission denied")
  | notDirectory => (20, "Not a directory")
  | isDirectory => (21, "Is a directory")

/-- What is said about the fault. -/
def ReadFault.message (f : ReadFault) (file : String) : String :=
  "[Errno " ++ Number.decimal f.reason.1 ++ "] " ++ f.reason.2 ++ ": " ++ Text.quoted file

/-- What a run leaves behind: its code, what it says, what it puts out, and the file for that if
it does not go to the standard output. -/
structure Outcome where
  code : Nat := 0
  log : String := ""
  output : String := ""
  file : Option String := none
  deriving Repr, DecidableEq

/-- The lines of the notices that weigh enough. -/
def noticeLines (level : Loading.Weight) (notices : List Loading.Notice) : String :=
  let shown := notices.filter fun n => level.rank ≤ n.weight.rank
  String.join (shown.map fun n => n.line ++ "\n")

/-- A run that ends with an error. -/
def Outcome.failure (log : String) : Outcome := { code := 2, log }

/-- A run that an error breaks off which nothing handles, as where an integer with too many digits
is to be turned into text.  Of what is said about such an error the last line is kept. -/
def Outcome.brokenOff (log : String) : Outcome where
  code := 1
  log := log ++ "ValueError: " ++ Number.unwritable ++ "\n"

/-- What is said about versions. -/
def versionText : String :=
  "Version information:\n  bibsel: 0.1.0\n  selector language: 1.0\n"

namespace Request

/-- The library of a text, or why there is none: its file or what it says. -/
def load (source : Except ReadFault String) :
    Loading.Noted (ReadFault ⊕ Loading.LoadFault) Library :=
  match source with
  | .error f => .fail (.inl f)
  | .ok text =>
    let noted := Loading.libraryOfDocument text
    ⟨noted.notices, noted.result.mapError .inr⟩

/-- The outcome where there is no library. -/
def refuse (r : Request) (log : String) : ReadFault ⊕ Loading.LoadFault → Outcome
  | .inl f => told (f.message r.file)
  | .inr .overlong => .brokenOff log
  | .inr f => told f.message
where
  /-- A run that ends with what is said about the library. -/
  told (message : String) : Outcome :=
    .failure (log ++ "Cannot load library " ++ r.file ++ ": " ++ message ++ "\n")

/-- The notices of a search, between the two of its start and its end. -/
def searchNotices (q : Selector.Query) (found total : Nat) : List Loading.Notice :=
  [.selecting q.source total, .matched q.source found total]

/-- The outcome of a search. -/
def report (r : Request) (notices : List Loading.Notice) (q : Selector.Query) (l : Library)
    (found : List (Entry × Search.Bindings)) : Outcome :=
  let o := r.options
  let log := noticeLines o.level (notices ++ searchNotices q found.length l.size)
  match found.mapM fun p => item o p.1 p.2 with
  | none => .brokenOff log
  | some items =>
    let closing := "Selected " ++ Number.decimal found.length ++ " of " ++ Number.decimal l.size ++
      " entries\n"
    { log := log ++ closing
      output := reportText o items
      file := o.output.filter fun name => !name.isEmpty }

/-- The outcome of a request, given the text of its library file. -/
def answer (r : Request) (source : Except ReadFault String) : Except Search.Fault Outcome :=
  match Selector.Query.parse r.selector with
  | .error e => .ok (.failure ("Invalid selector: " ++ e.message ++ "\n" ++ e.caret ++ "\n"))
  | .ok q =>
    let loaded := load source
    match loaded.result with
    | .error f => .ok (r.refuse (noticeLines r.options.level loaded.notices) f)
    | .ok l => (Search.applyAll q.expr l.entries).map (r.report loaded.notices q l)

theorem answer_of_bad_selector {r : Request} {e : Selector.SelectorError}
    (h : Selector.Query.parse r.selector = .error e) (s t : Except ReadFault String) :
    r.answer s = r.answer t := by
  simp [answer, h]

end Request

end Bibliograph.CommandLine
