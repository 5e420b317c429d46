import Bibliograph.Yaml.Cursor

/-!
# Block scalars

A block scalar consists of the indented lines below its header.  The header says whether the lines
are folded, how the end is chomped and, if it must be said, how far the lines are indented;
otherwise the first line that is not empty decides.  Folded lines are joined by a space unless one
of them starts with a blank.

Main definitions:

* `Yaml.Chomping`, `Yaml.BlockHeader`: what the header says;
* `Yaml.BlockLine`: one line with the empty lines behind it;
* `Yaml.blockText`: the text of the lines;
* `Yaml.blockScalar`: the text of a block scalar, read from behind the first mark of its header.
-/

set_option autoImplicit false

namespace Bibliograph.Yaml

/-- What becomes of the line breaks at the end: all go, the first one stays, or all stay. -/
inductive Chomping where
  | strip
  | clip
  | keep
  deriving Repr, DecidableEq

/-- The chomping, and how much deeper than the collection around it the lines are indented. -/
structure BlockHeader where
  chomping : Chomping := .clip
  depth : Option Nat := none
  deriving Repr, DecidableEq

/-- A line, its line break, and the breaks of the empty lines behind it. -/
structure BlockLine where
  text : List Char
  close : List Char
  empty : List Char
  deriving Repr, DecidableEq

/-! ### The text of lines -/

/-- Whether the line starts with a blank. -/
def BlockLine.isSpaced (l : BlockLine) : Bool :=
  l.text.head?.any fun c => c == ' ' || c == '\t'

/-- What stands between a line and the next one. -/
def BlockLine.join (fold : Bool) (l next : BlockLine) : List Char :=
  if fold && l.close == ['\n'] && !l.isSpaced && !next.isSpaced then
    if l.empty.isEmpty then [' '] else l.empty
  else l.close ++ l.empty

/-- What stands behind the last line. -/
def BlockLine.end (chomping : Chomping) (l : BlockLine) : List Char :=
  match chomping with
  | .strip => []
  | .clip => l.close
  | .keep => l.close ++ l.empty

/-- The text of lines. -/
def blockLinesText (fold : Bool) (chomping : Chomping) : List BlockLine → List Char
  | [] => []
  | [l] => l.text ++ l.end chomping
  | l :: m :: ls => l.text ++ l.join fold m ++ blockLinesText fold chomping (m :: ls)

/-- The text of lines with the breaks of the empty lines in front of them. -/
def blockText (fold : Bool) (chomping : Chomping) (empty : List Char) (ls : List BlockLine) :
    List Char :=
  if ls.isEmpty then if chomping = .keep then empty else []
  else empty ++ blockLinesText fold chomping ls

/-! ### Reading -/

/-- A sign for the chomping, if there is one. -/
def readChomping : Reader (Option Chomping) := do
  match ← Reader.peek? with
  | some '+' => Reader.skip 1; return some .keep
  | some '-' => Reader.skip 1; return some .strip
  | _ => return none

/-- A digit for the depth, if there is one. -/
def readDepth : Reader (Option Nat) := do
  let some c ← Reader.peek? | return none
  if !c.isDigit then return none
  Reader.require (c != '0') .badHeader
  Reader.skip 1
  return some (c.toNat - '0'.toNat)

/-- The header, with its two parts in either order. -/
def blockHeader : Reader BlockHeader := do
  let before ← readChomping
  let depth ← readDepth
  let after ← if before.isSome || depth.isNone then pure none else readChomping
  Reader.require (endsPart (← Reader.peek?)) .badHeader
  Reader.endLine .badHeader
  return { chomping := (before.orElse fun _ => after).getD .clip, depth }

/-- The number of characters in front of the first line that is not empty, up to its
indentation; `column` is where the characters start. -/
def emptyLines (indent : Nat) : (column : Nat) → List Char → Nat
  | _, [] => 0
  | column, c :: cs =>
    if isBreak c then emptyLines indent 0 cs + 1
    else if c == ' ' && column < indent then emptyLines indent (column + 1) cs + 1
    else 0

/-- The breaks of the empty lines up to the indentation of the next line. -/
def readEmptyLines (indent : Nat) : Reader (List Char) := do
  let c ← get
  let run := c.rest.take (emptyLines indent c.column c.rest)
  Reader.skip run.length
  return lineBreaks run

/-- The most spaces at the start of a line. -/
def deepest : (column most : Nat) → List Char → Nat
  | _, most, [] => most
  | column, most, c :: cs =>
    if isBreak c then deepest 0 most cs else deepest (column + 1) (max most (column + 1)) cs

/-- The indentation of the lines and the breaks of the empty lines in front of them; the lines
are indented at least by `least`. -/
def readIndentation (least : Nat) (depth : Option Nat) : Reader (Nat × List Char) := do
  match depth with
  | some n =>
    let indent := least + n - 1
    return (indent, ← readEmptyLines indent)
  | none =>
    let column := (← get).column
    let run ← Reader.take isSpaceOrBreak
    return (max least (deepest column 0 run), lineBreaks run)

/-- At most `room` lines of this indentation. -/
def blockLines (indent : Nat) : (room : Nat) → Reader (List BlockLine)
  | 0 => return []
  | room + 1 => do
    let c ← get
    -- a line with less indentation ends the scalar; one with more has its spaces in the text
    if c.column != indent || c.rest.isEmpty then return []
    let text ← Reader.take fun c => !isBreak c
    let close := match (← get).rest with
      | '\r' :: '\n' :: _ => ['\r', '\n']
      | rest => rest.take 1
    Reader.skip close.length
    let empty ← readEmptyLines indent
    return ⟨text, lineBreaks close, empty⟩ :: (← blockLines indent room)

/-- The text of a block scalar, read from behind the first mark of its header; `least` is the
least indentation of its lines. -/
def blockScalar (fold : Bool) (least : Nat) : Reader (List Char) := do
  let header ← blockHeader
  let (indent, empty) ← readIndentation least header.depth
  let lines ← blockLines indent ((← get).rest.length + 1)
  return blockText fold header.chomping empty lines

end Bibliograph.Yaml
