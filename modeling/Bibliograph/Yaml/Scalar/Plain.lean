import Bibliograph.Yaml.Cursor

/-!
# Plain scalars

A plain scalar has no quotes.  It ends before a colon that ends a word, before a comment, at a line
that is not indented enough, and inside brackets also before the marks that mean something there.
Its lines are joined like those of a quoted scalar, but tabs do not count as blanks.

Main definitions:

* `Yaml.endsPlain`: whether a plain scalar ends before a character;
* `Yaml.startsPlain`: whether one starts with it;
* `Yaml.plainScalar`: the text of a plain scalar, and whether it ended with a line.
-/

set_option autoImplicit false

namespace Bibliograph.Yaml

/-- The marks of collections in brackets. -/
def isFlowMark (c : Char) : Bool :=
  c == ',' || c == '[' || c == ']' || c == '\x7b' || c == '\x7d'

/-- The marks that no plain scalar starts with. -/
def isIndicator (c : Char) : Bool :=
  isFlowMark c ||
    ['-', '?', ':', '#', '&', '*', '!', '|', '>', '\'', '"', '%', '@', '\x60'].contains c

/-- Whether a plain scalar starts with `c`, if `next` follows. -/
def startsPlain (inFlow : Bool) (c : Char) (next : Option Char) : Bool :=
  !(isGap c || isIndicator c) ||
    (!endsWord next && (c == '-' || (!inFlow && (c == '?' || c == ':'))))

/-- Whether a plain scalar ends before `c`, if `next` follows. -/
def endsPlain (inFlow : Bool) (c : Char) (next : Option Char) : Bool :=
  isGap c || (c == ':' && (endsWord next || (inFlow && next.any isFlowMark))) ||
    (inFlow && (isFlowMark c || c == '?'))

/-- The longest run of characters of a plain scalar. -/
def plainRun (inFlow : Bool) : List Char → List Char
  | [] => []
  | c :: cs => if endsPlain inFlow c cs.head? then [] else c :: plainRun inFlow cs

/-- What stands for the spaces and breaks between two runs, and whether a line ended; nothing
stands for them before a document separator. -/
def plainGap : Reader (List Char × Bool) := do
  let run ← Reader.take isSpaceOrBreak
  let breaks := lineBreaks run
  if breaks.isEmpty then return (run, false)
  return (if (← get).atSeparator then [] else folded breaks, true)

/-- The rest of a plain scalar of at most `room` runs, behind the `blanks` that follow its
earlier runs; `ended` says whether a line ended there. -/
def plainWithin (inFlow : Bool) (indent : Nat) :
    (room : Nat) → (blanks : List Char) → (ended : Bool) → Reader (List Char × Bool)
  | 0, _, ended => return ([], ended)
  | room + 1, blanks, ended => do
    let run := plainRun inFlow (← get).rest
    if run.isEmpty || (← Reader.peek?) == some '#' then return ([], ended)
    Reader.skip run.length
    let (more, ended) ← plainGap
    -- a run with nothing behind it, or with a line that belongs to the collection around it, is
    -- the last one
    if more.isEmpty || (!inFlow && (← get).column < indent) then return (blanks ++ run, ended)
    let (rest, ended) ← plainWithin inFlow indent room more ended
    return (blanks ++ run ++ rest, ended)

/-- The text of a plain scalar whose further lines start at the column `indent` or behind it, and
whether the scalar ended with a line. -/
def plainScalar (inFlow : Bool) (indent : Nat) : Reader (List Char × Bool) := do
  plainWithin inFlow indent ((← get).rest.length + 1) [] false

end Bibliograph.Yaml
