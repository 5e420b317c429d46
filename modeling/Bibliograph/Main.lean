import Bibliograph.CommandLine.Run

/-!
# The command

Main definitions:

* `main`: runs the command on the words that it is given.
-/

set_option autoImplicit false

namespace Bibliograph.CommandLine

/-- How the command is used. -/
def usageText : String :=
  "usage: bibliograph [-h] [--bindings] [--canonical] [--pretty-print] [--log-level LEVEL]\n" ++
  "                   [--show-timing] [--version] [-o FILE] selector library_file\n"

/-- The text of a file. -/
def readText (file : String) : IO (Except ReadFault String) := do
  try
    return .ok (← IO.FS.readFile file)
  catch e =>
    match e with
    | .noFileOrDirectory .. => return .error .missing
    | .permissionDenied .. => return .error .denied
    | .inappropriateType .. => return .error .isDirectory
    | e => throw e

/-- Answers a request. -/
def runRequest (r : Request) : IO UInt32 := do
  let start ← IO.monoMsNow
  match r.answer (← readText r.file) with
  | .error f => throw (IO.userError f.message)
  | .ok o =>
    if r.options.showTiming then
      IO.eprintln s!"Time: {(← IO.monoMsNow) - start} ms"
    IO.eprint o.log
    match o.file with
    | some file => IO.FS.writeFile file o.output
    | none => IO.print o.output
    return o.code.toUInt32

/-- Does what the words ask for. -/
def runWords (words : List String) : IO UInt32 := do
  match Command.ofWords words with
  | .error u =>
    IO.eprint (usageText ++ "error: " ++ u.message ++ "\n")
    return 2
  | .ok .help =>
    IO.print usageText
    return 0
  | .ok .version =>
    IO.print versionText
    return 0
  | .ok (.select r) => runRequest r

end Bibliograph.CommandLine

/-- Runs the command on the words that it is given. -/
def main (words : List String) : IO UInt32 :=
  Bibliograph.CommandLine.runWords words
