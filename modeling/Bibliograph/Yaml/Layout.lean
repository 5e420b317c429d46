import Bibliograph.Yaml.Property
import Bibliograph.Yaml.Scalar.Block
import Bibliograph.Yaml.Scalar.Plain

/-!
# From layout to tokens

Outside of brackets the columns decide which collections start and end.  That a node is a key only
shows at the colon behind it, so a place where a key may have started is remembered until then: a
key is on one line, and its colon is at most 1024 characters behind its start.

Main definitions:

* `Yaml.KeyPlace`: a place where a key may have started;
* `Yaml.Layout`: the tokens so far, with the open collections and the remembered places;
* `Yaml.Layout.step`: the next token;
* `Yaml.lexemes`: the tokens of a text.

Main results:

* `Yaml.Layout.lexemes_emit`: emitting adds one token at the end.
-/

set_option autoImplicit false

namespace Bibliograph.Yaml

/-- A place where a key may have started: how many tokens there are before it, whether it has to
be a key, and where it is in the text. -/
structure KeyPlace where
  number : Nat
  required : Bool
  index : Nat
  line : Nat
  column : Nat
  deriving Repr, DecidableEq

/-- Whether a key cannot have started here any more. -/
def KeyPlace.isOver (k : KeyPlace) (c : Cursor) : Bool :=
  k.line != c.line || c.index > k.index + 1024

/-- The tokens so far and what the next ones depend on.

`indents` are the columns of the open collections outside of brackets, the innermost first.
`here` is the place of a key at the present depth of brackets and `around` has those at the depths
around it, so its length is the depth. -/
structure Layout where
  cursor : Cursor
  lexemes : Array Lexeme := #[]
  indents : List Nat := []
  here : Option KeyPlace := none
  around : List (Option KeyPlace) := []
  keyAllowed : Bool := true

namespace Layout

/-- Whether the next token stands inside brackets. -/
def inFlow (l : Layout) : Bool :=
  !l.around.isEmpty

/-- Whether a collection that starts at this column lies deeper than the open ones. -/
def isDeeper (l : Layout) (column : Nat) : Bool :=
  l.indents.head?.all fun i => i < column

/-- The first column that is deeper than the open collections. -/
def deeper (l : Layout) : Nat :=
  (l.indents.head?.map (· + 1)).getD 0

/-- One more token. -/
def emit (l : Layout) (t : Token) (line : Nat) : Layout :=
  { l with lexemes := l.lexemes.push ⟨t, line⟩ }

theorem lexemes_emit (l : Layout) (t : Token) (line : Nat) :
    (l.emit t line).lexemes.toList = l.lexemes.toList ++ [⟨t, line⟩] := by
  simp [emit]

/-! ### Places of keys -/

/-- Forgets a place, which must not be one that has to be a key. -/
def forget (k : Option KeyPlace) : Except Problem Unit :=
  if k.any KeyPlace.required then throw .keyWithoutValue else return

/-- Forgets the place of a key at the present depth. -/
def forgetHere (l : Layout) : Except Problem Layout := do
  forget l.here
  return { l with here := none }

/-- A place, unless it is over. -/
def keepOpen (c : Cursor) (k : Option KeyPlace) : Except Problem (Option KeyPlace) := do
  if k.any fun k => k.isOver c then
    forget k
    return none
  return k

/-- Forgets the places that are over. -/
def forgetOver (l : Layout) : Except Problem Layout := do
  let here ← keepOpen l.cursor l.here
  let around ← l.around.mapM (keepOpen l.cursor)
  return { l with here, around }

/-- Remembers the place of the next token if a key may start there. -/
def remember (l : Layout) : Except Problem Layout := do
  if !l.keyAllowed then return l
  let l ← l.forgetHere
  let c := l.cursor
  -- what starts at the column of the innermost collection can only be a key of it
  let required := !l.inFlow && l.indents.head? == some c.column
  return { l with here := some ⟨l.lexemes.size, required, c.index, c.line, c.column⟩ }

/-! ### Collections by indentation -/

/-- Ends the collections whose column is not kept. -/
def close (l : Layout) (keep : Nat → Bool) : Layout :=
  let ended := l.indents.takeWhile fun i => !keep i
  let lexeme : Lexeme := ⟨.blockEnd, l.cursor.line⟩
  { l with
    indents := l.indents.drop ended.length
    lexemes := l.lexemes ++ Array.replicate ended.length lexeme }

/-- Ends the collections that lie deeper than the next token. -/
def closeDeeper (l : Layout) : Layout :=
  if l.inFlow then l else l.close fun i => i ≤ l.cursor.column

/-- Ends all collections. -/
def closeAll (l : Layout) : Except Problem Layout := do
  let l := if l.inFlow then l else l.close fun _ => false
  return { (← l.forgetHere) with keyAllowed := false }

/-- Starts a collection at a column if that lies deeper than the open ones. -/
def start (l : Layout) (t : Token) : Layout :=
  let c := l.cursor
  if l.isDeeper c.column then
    { l.emit t c.line with indents := c.column :: l.indents }
  else l

/-! ### Reading -/

/-- Runs a reader at the cursor. -/
def read {α : Type} (l : Layout) (r : Reader α) : Except Problem (α × Layout) := do
  let (a, cursor) ← r.run l.cursor
  return (a, { l with cursor })

/-- A token of so many characters. -/
def mark (l : Layout) (t : Token) (width : Nat) : Layout :=
  let line := l.cursor.line
  { l with cursor := l.cursor.skip width }.emit t line

/-- The number of characters between two tokens: spaces, line breaks and comments. -/
def between : (inComment : Bool) → List Char → Nat
  | _, [] => 0
  | inComment, c :: cs =>
    if isBreak c then between false cs + 1
    else if inComment then between true cs + 1
    else if c == ' ' then between false cs + 1
    else if c == '#' then between true cs + 1
    else 0

/-- Moves to the next token.  On a new line a key may start, but not inside brackets. -/
def advance (l : Layout) : Layout :=
  let c := l.cursor
  let c := if c.index == 0 && c.peek? == some byteOrderMark then c.next else c
  let cursor := c.skip (between false c.rest)
  { l with cursor, keyAllowed := l.keyAllowed || (!l.inFlow && c.line < cursor.line) }

/-- A token that may be a key. -/
def content (l : Layout) (r : Reader Token) : Except Problem Layout := do
  let l ← l.remember
  let line := l.cursor.line
  let (t, l) ← l.read r
  return { l.emit t line with keyAllowed := false }

/-! ### The kinds of tokens -/

/-- An opening bracket. -/
def opening (l : Layout) (t : Token) : Except Problem Layout := do
  let l ← l.remember
  return { l.mark t 1 with here := none, around := l.here :: l.around, keyAllowed := true }

/-- A closing bracket. -/
def closing (l : Layout) (t : Token) : Except Problem Layout := do
  let l ← l.forgetHere
  match l.around with
  | [] => throw .unexpectedClose
  | here :: around => return { l.mark t 1 with here, around, keyAllowed := false }

/-- A comma inside brackets. -/
def flowEntry (l : Layout) : Except Problem Layout := do
  let l ← l.forgetHere
  return { l.mark .flowEntry 1 with keyAllowed := true }

/-- A mark that may start a collection by indentation. -/
def indented (l : Layout) (t collection : Token) (p : Problem) : Except Problem Layout := do
  if !l.inFlow && !l.keyAllowed then throw p
  let l := if l.inFlow then l else l.start collection
  return (← l.forgetHere).mark t 1

/-- The hyphen of a sequence entry. -/
def blockEntry (l : Layout) : Except Problem Layout := do
  return { ← l.indented .blockEntry .blockSequence .entryNotAllowed with keyAllowed := true }

/-- The question mark of a key. -/
def key (l : Layout) : Except Problem Layout := do
  return { ← l.indented .key .blockMapping .keyNotAllowed with keyAllowed := !l.inFlow }

/-- The colon of a value.  It makes a key of what started at the remembered place, and outside of
brackets that may start a mapping, too. -/
def value (l : Layout) : Except Problem Layout := do
  match l.here with
  | none =>
    return { ← l.indented .value .blockMapping .valueNotAllowed with keyAllowed := !l.inFlow }
  | some k =>
    let starts := !l.inFlow && l.isDeeper k.column
    -- the mapping is put in last, so that it comes before its first key
    let lexemes := l.lexemes.insertIdxIfInBounds k.number ⟨.key, k.line⟩
    let l :=
      if starts then
        { l with
          lexemes := lexemes.insertIdxIfInBounds k.number ⟨.blockMapping, k.line⟩
          indents := k.column :: l.indents }
      else { l with lexemes }
    return { l.mark .value 1 with here := none, keyAllowed := false }

/-- A block scalar; behind it a line has ended. -/
def block (l : Layout) (fold : Bool) : Except Problem Layout := do
  let l ← l.forgetHere
  let line := l.cursor.line
  let (text, l) ← l.read do
    Reader.skip 1
    blockScalar fold (max 1 l.deeper)
  return { l.emit (.scalar (String.ofList text) false) line with keyAllowed := true }

/-- A quoted scalar. -/
def quoted (l : Layout) (r : Reader (List Char)) : Except Problem Layout :=
  l.content do
    Reader.skip 1
    return .scalar (String.ofList (← r)) false

/-- A plain scalar; a key may follow if it ended with a line. -/
def plain (l : Layout) : Except Problem Layout := do
  let l ← l.remember
  let line := l.cursor.line
  let ((text, ended), l) ← l.read (plainScalar l.inFlow l.deeper)
  return { l.emit (.scalar (String.ofList text) true) line with keyAllowed := ended }

/-- A line that says something about the document below it. -/
def directiveLine (l : Layout) : Except Problem Layout := do
  let l ← l.closeAll
  let line := l.cursor.line
  let (d, l) ← l.read do
    Reader.skip 1
    directive
  return l.emit (.directive d) line

/-- The start or the end of a document. -/
def separator (l : Layout) (t : Token) : Except Problem Layout := do
  return (← l.closeAll).mark t 3

/-! ### Tokens -/

/-- The token that starts with `c`. -/
def token (l : Layout) (c : Char) : Except Problem Layout :=
  let next := l.cursor.peekAt? 1
  let alone := l.inFlow || endsWord next
  if c == '%' && l.cursor.column == 0 then l.directiveLine
  else if l.cursor.atMarker '-' then l.separator .documentStart
  else if l.cursor.atMarker '.' then l.separator .documentEnd
  else if c == '[' then l.opening .flowSequence
  else if c == '\x7b' then l.opening .flowMapping
  else if c == ']' then l.closing .flowSequenceEnd
  else if c == '\x7d' then l.closing .flowMappingEnd
  else if c == ',' then l.flowEntry
  else if c == '-' && endsWord next then l.blockEntry
  else if c == '?' && alone then l.key
  else if c == ':' && alone then l.value
  else if c == '*' then l.content do Reader.skip 1; return .reference (← anchorName)
  else if c == '&' then l.content do Reader.skip 1; return .anchor (← anchorName)
  else if c == '!' then l.content do return .tag (← tagName)
  else if c == '|' && !l.inFlow then l.block false
  else if c == '>' && !l.inFlow then l.block true
  else if c == '\'' then l.quoted singleQuoted
  else if c == '"' then l.quoted doubleQuoted
  else if startsPlain l.inFlow c next then l.plain
  else throw (.noToken c)

/-- The layout with the next tokens, and whether more of the text is left. -/
def step (l : Layout) : Except Problem (Layout × Bool) := do
  -- places are forgotten before collections end, since a place may require a key
  let l ← l.advance.forgetOver
  let l := l.closeDeeper
  match l.cursor.peek? with
  | none => return (← l.closeAll, false)
  | some c => return (← l.token c, true)

/-- At most `room` steps. -/
def steps (l : Layout) : (room : Nat) → Except Problem Layout
  | 0 => return l
  | room + 1 => do
    let (l, more) ← l.step
    if more then l.steps room else return l

end Layout

/-- The tokens of a text. -/
def lexemes (text : List Char) : Except Problem (List Lexeme) := do
  if let some c := text.find? fun c => !isAllowed c then throw (.unprintable c)
  let l ← Layout.steps { cursor := { rest := text } } (text.length + 1)
  return l.lexemes.toList

end Bibliograph.Yaml
