import Bibliograph.Yaml.Scalar.Quoted
import Bibliograph.Yaml.Token

/-!
# Anchors, tags and directives

Main definitions:

* `Yaml.anchorName`: the name of an anchor or an alias;
* `Yaml.tagUri`, `Yaml.tagHandle`, `Yaml.tagName`: the parts of a tag and the whole;
* `Yaml.directive`: a directive up to the end of its line.
-/

set_option autoImplicit false

namespace Bibliograph.Yaml

/-- The name of an anchor or an alias, read from behind its mark. -/
def anchorName : Reader String := do
  let name ← Reader.take isNameChar
  Reader.require (!name.isEmpty) .badName
  let c ← Reader.peek?
  let closers := ['?', ':', ',', ']', '\x7d', '%', '@', '\x60']
  Reader.require (endsWord c || c.any closers.contains) .badName
  return String.ofList name

/-! ### Tags -/

/-- The characters that stand for themselves in a tag. -/
def isUriChar (c : Char) : Bool :=
  isNameChar c || [';', '/', '?', ':', '@', '&', '=', '+', '$', ',', '.', '!', '~', '*', '\'', '(',
    ')', '[', ']'].contains c

/-- A run of bytes of two hexadecimal digits, each behind a percent sign. -/
def uriBytes : (room : Nat) → Reader (List UInt8)
  | 0 => return []
  | room + 1 => do
    if (← Reader.peek?) != some '%' then return []
    Reader.skip 1
    let byte ← hexNumber 2
    return byte.toUInt8 :: (← uriBytes room)

/-- At most `room` parts of a tag. -/
def uriParts : (room : Nat) → Reader (List Char)
  | 0 => return []
  | room + 1 => do
    let run ← Reader.take isUriChar
    let bytes ← uriBytes (← get).rest.length
    if run.isEmpty && bytes.isEmpty then return []
    let some text := String.fromUTF8? (ByteArray.mk bytes.toArray) | throw .badTag
    return run ++ text.toList ++ (← uriParts room)

/-- The suffix of a tag; it is not empty. -/
def tagUri : Reader String := do
  let text ← uriParts ((← get).rest.length + 1)
  Reader.require (!text.isEmpty) .badTag
  return String.ofList text

/-- A handle: an exclamation mark, or a name between two of them. -/
def tagHandle : Reader String := do
  Reader.require ((← Reader.peek?) == some '!') .badTag
  Reader.skip 1
  if (← Reader.peek?) == some ' ' then return "!"
  let name ← Reader.take isNameChar
  Reader.require ((← Reader.peek?) == some '!') .badTag
  Reader.skip 1
  return String.ofList ('!' :: name ++ ['!'])

/-- A tag, read from its exclamation mark on. -/
def tagName : Reader TagName := do
  let c := (← get).rest.drop 1
  let tag ←
    if c.head? == some '<' then do
      Reader.skip 2
      let suffix ← tagUri
      Reader.require ((← Reader.peek?) == some '>') .badTag
      Reader.skip 1
      pure { handle := none, suffix }
    else if endsWord c.head? then do
      Reader.skip 1
      pure { handle := none, suffix := "!" }
    else if (c.takeWhile fun c => !isSpaceOrBreak c).contains '!' then do
      let handle ← tagHandle
      pure { handle := some handle, suffix := ← tagUri }
    else do
      Reader.skip 1
      pure { handle := some "!", suffix := ← tagUri }
  Reader.require (endsPart (← Reader.peek?)) .badTag
  return tag

/-! ### Directives -/

/-- The number of a version. -/
def versionNumber : Reader Nat := do
  let digits ← Reader.take Char.isDigit
  Reader.require (!digits.isEmpty) .badDirective
  return (Number.readNat? 10 digits).getD 0

/-- Two numbers with a point between them, of which the first counts. -/
def versionDirective : Reader Directive := do
  discard <| Reader.take (· == ' ')
  let major ← versionNumber
  Reader.require ((← Reader.peek?) == some '.') .badDirective
  Reader.skip 1
  discard versionNumber
  Reader.require (endsPart (← Reader.peek?)) .badDirective
  return .version major

/-- A handle and the beginning that it stands for. -/
def tagDirective : Reader Directive := do
  discard <| Reader.take (· == ' ')
  let handle ← tagHandle
  Reader.require ((← Reader.peek?) == some ' ') .badDirective
  discard <| Reader.take (· == ' ')
  let beginning ← tagUri
  Reader.require (endsPart (← Reader.peek?)) .badDirective
  return .tag handle beginning

/-- A directive with the rest of its line, read from behind its percent sign. -/
def directive : Reader Directive := do
  let name ← Reader.take isNameChar
  Reader.require (!name.isEmpty && endsPart (← Reader.peek?)) .badDirective
  let d ← match String.ofList name with
    | "YAML" => versionDirective
    | "TAG" => tagDirective
    | _ => do
      discard <| Reader.take fun c => !isBreak c
      pure .unknown
  Reader.endLine .badDirective
  return d

end Bibliograph.Yaml
