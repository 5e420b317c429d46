import Bibliograph.Loading.Notice
import Bibliograph.Number.Written

/-!
# Arguments

The command takes a selector and a library file, and options.  A long option may be cut short as
long as no other one starts alike; its value follows behind an equals sign or as the next word.  The
value of a short option may follow at once.  Behind two hyphens that stand alone no word is an
option, and neither is a negative number or a word with a space that is no known option.

The selector and the library file stand next to each other: a word elsewhere is one too many.

Main definitions:

* `CommandLine.Switch`, `CommandLine.Setting`: the options;
* `CommandLine.Word`: what a word is on its own;
* `CommandLine.Request`: a selector for a library, with what the options say;
* `CommandLine.Command.ofWords`: what the words ask for.

Main results:

* `CommandLine.Word.classify_plain`: a word that does not start with a hyphen is no option.
-/

set_option autoImplicit false

namespace Bibliograph.CommandLine

/-! ### Options -/

/-- The options without a value. -/
inductive Switch where
  | bindings
  | canonical
  | prettyPrint
  | showTiming
  | version
  | help
  deriving Repr, DecidableEq

/-- The options with a value. -/
inductive Setting where
  | logLevel
  | output
  deriving Repr, DecidableEq

/-- The options. -/
inductive Choice where
  | switch (s : Switch)
  | setting (s : Setting)
  deriving Repr, DecidableEq

/-- The options by their names. -/
def choices : List (String × Choice) := [
  ("--bindings", .switch .bindings), ("--canonical", .switch .canonical),
  ("--pretty-print", .switch .prettyPrint), ("--log-level", .setting .logLevel),
  ("--show-timing", .switch .showTiming), ("--version", .switch .version),
  ("--output", .setting .output), ("-o", .setting .output),
  ("--help", .switch .help), ("-h", .switch .help)]

/-- Why the words make no sense. -/
inductive Usage where
  | ambiguous
  | missingValue
  | unexpectedValue
  | unknownLevel
  | tooManyWords
  | tooFewWords
  deriving Repr, DecidableEq

/-- What is said about words that make no sense. -/
def Usage.message : Usage → String
  | ambiguous => "an option is ambiguous"
  | missingValue => "an option needs a value"
  | unexpectedValue => "an option takes no value"
  | unknownLevel => "the log level is unknown"
  | tooManyWords => "there are words that mean nothing"
  | tooFewWords => "a selector and a library file are required"

/-! ### Words -/

/-- What a word is on its own. -/
inductive Word where
  | plain (s : String)
  | separator
  | option (c : Choice) (value : Option String)
  | unknown
  deriving Repr, DecidableEq

namespace Word

/-- Whether the text is a negative number. -/
def isNegative : List Char → Bool
  | '-' :: cs =>
    match Number.splitAtFirst (· == '.') cs with
    | (whole, none) => !whole.isEmpty && whole.all Text.isDigit
    | (whole, some rest) => whole.all Text.isDigit && !rest.isEmpty && rest.all Text.isDigit
  | _ => false

/-- The options that a long name stands for, in full or cut short. -/
def abbreviated (name : List Char) : List Choice :=
  (choices.filter fun p => name.isPrefixOf p.1.toList).map Prod.snd

/-- A word that is no option and starts with a hyphen. -/
def unmatched (cs : List Char) : Word :=
  if isNegative cs || cs.contains ' ' then .plain (String.ofList cs) else .unknown

/-- A word that is not the full name of an option, where `value` is what follows the first equals
sign behind `name`. -/
def partly (cs name : List Char) (value : Option String) : Except Usage Word :=
  if cs.take 2 == ['-', '-'] then
    match abbreviated name with
    | [] => .ok (unmatched cs)
    | [c] => .ok (.option c value)
    | _ => .error .ambiguous
  else
    match choices.lookup (String.ofList (cs.take 2)) with
    | some c => .ok (.option c (some (String.ofList (cs.drop 2))))
    | none => .ok (unmatched cs)

/-- What a word is, in front of a separator. -/
def classify (s : String) : Except Usage Word :=
  let cs := s.toList
  if cs.head? != some '-' || cs == ['-'] then .ok (.plain s)
  else
    let (name, value) := Number.splitAtFirst (· == '=') cs
    let value := value.map String.ofList
    match choices.lookup s, choices.lookup (String.ofList name) with
    | some c, _ => .ok (.option c none)
    | none, some c => .ok (.option c value)
    | none, none => partly cs name value

/-- What the words are. -/
def classifyAll : List String → Except Usage (List Word)
  | [] => .ok []
  | "--" :: rest => .ok (.separator :: rest.map .plain)
  | s :: rest => do return (← classify s) :: (← classifyAll rest)

theorem classify_plain {s : String} (h : s.toList.head? ≠ some '-') :
    classify s = .ok (.plain s) := by
  simp [classify, h]

end Word

/-! ### Commands -/

/-- What the options say. -/
structure Options where
  bindings : Bool := false
  canonical : Bool := false
  prettyPrint : Bool := false
  showTiming : Bool := false
  version : Bool := false
  level : Loading.Weight := .warning
  output : Option String := none
  deriving Repr, DecidableEq

/-- A selector and a library file, and what the options say. -/
structure Request where
  selector : String
  file : String
  options : Options
  deriving Repr, DecidableEq

/-- What the words ask for. -/
inductive Command where
  | help
  | version
  | select (r : Request)
  deriving Repr, DecidableEq

/-- How far the row of words that are no options has come. -/
inductive Row where
  | ahead
  | present
  | over
  deriving Repr, DecidableEq

/-- What is known when some of the words are read. -/
structure Scan where
  options : Options := {}
  row : Row := .ahead
  words : List String := []
  help : Bool := false
  tooMany : Bool := false
  deriving Repr, DecidableEq

namespace Scan

/-- An option ends the row of words. -/
def endRow (s : Scan) : Scan :=
  if s.row = .present then { s with row := .over } else s

/-- A word that is no option, or a separator. -/
def addWord (s : Scan) (word : Option String) : Scan :=
  if s.row = .over then { s with tooMany := true }
  else { s with row := .present, words := s.words ++ word.toList }

/-- An option without a value. -/
def apply (s : Scan) (w : Switch) : Scan :=
  let s := s.endRow
  let o := s.options
  match w with
  | .bindings => { s with options := { o with bindings := true } }
  | .canonical => { s with options := { o with canonical := true } }
  | .prettyPrint => { s with options := { o with prettyPrint := true } }
  | .showTiming => { s with options := { o with showTiming := true } }
  | .version => { s with options := { o with version := true } }
  | .help => { s with help := true }

/-- An option with its value. -/
def assign (s : Scan) (t : Setting) (value : String) : Except Usage Scan :=
  let s := s.endRow
  match t with
  | .output => .ok { s with options := { s.options with output := some value } }
  | .logLevel =>
    match Loading.Weight.ofWord? value with
    | some level => .ok { s with options := { s.options with level } }
    | none => .error .unknownLevel

/-- Reads words up to the end or to a call for help. -/
def read (s : Scan) : List Word → Except Usage Scan
  | [] => .ok s
  | .plain word :: ws => read (s.addWord (some word)) ws
  -- a separator takes its place in the row of words, though it is none of them
  | .separator :: ws => read (s.addWord none) ws
  | .unknown :: ws => read { s.endRow with tooMany := true } ws
  | .option (.switch w) none :: ws =>
    let s := s.apply w
    if s.help then .ok s else read s ws
  | .option (.switch _) (some _) :: _ => .error .unexpectedValue
  | .option (.setting t) (some value) :: ws => do read (← s.assign t value) ws
  | .option (.setting t) none :: .plain value :: ws => do read (← s.assign t value) ws
  | .option (.setting _) none :: _ => .error .missingValue

end Scan

/-- What the words ask for. -/
def Command.ofWords (words : List String) : Except Usage Command := do
  let s ← Scan.read {} (← Word.classifyAll words)
  -- help is given whatever else the words say
  if s.help then return .help
  if s.tooMany || s.words.length > 2 then throw .tooManyWords
  if s.options.version then return .version
  match s.words with
  | [selector, file] =>
    if selector.isEmpty || file.isEmpty then throw .tooFewWords
    return .select { selector, file, options := s.options }
  | _ => throw .tooFewWords

end Bibliograph.CommandLine
