import Bibliograph.Text.Blank
import Bibliograph.Text.Case

/-!
# Persons

Authors and editors are written `Family, Given, Suffix`, where words in small letters in front of
the family name are a name prefix, as in `van den Berg, J.`.

Main definitions:

* `Person`: the parts of a name;
* `Person.ofText`: reads the written form;
* `Person.written`: the written form.

Main results:

* `Person.splitFamily_append`: prefix and family name together are the words that were read;
* `Person.splitFamily_snd_ne_nil`: a family name never consists of prefix words only.
-/

set_option autoImplicit false

namespace Bibliograph

/-- A person's name in parts. -/
structure Person where
  name : String
  given : Option String := none
  leading : Option String := none
  suffix : Option String := none
  pseudonym : Option String := none
  deriving Repr, DecidableEq

/-- Why a text names no person. -/
inductive PersonFault where
  | nameless
  | tooManyCommas
  deriving Repr, DecidableEq

namespace Person

/-- Whether the word starts with a small letter. -/
def isLeadingWord (word : List Char) : Bool :=
  word.head?.any Text.isLowercase

/-- Takes the words of a name prefix off the words of a family name, of which one always stays. -/
def splitFamily : List (List Char) → List (List Char) × List (List Char)
  | [] => ([], [])
  | [word] => ([], [word])
  | word :: next :: rest =>
    if isLeadingWord word then
      let (leading, family) := splitFamily (next :: rest)
      (word :: leading, family)
    else ([], word :: next :: rest)

theorem splitFamily_append (ws : List (List Char)) :
    (splitFamily ws).1 ++ (splitFamily ws).2 = ws := by
  fun_induction splitFamily ws <;> simp_all

theorem splitFamily_snd_ne_nil {ws : List (List Char)} (h : ws ≠ []) :
    (splitFamily ws).2 ≠ [] := by
  fun_induction splitFamily ws <;> simp_all

/-- The words with one space between any two. -/
def joinWords (ws : List (List Char)) : String :=
  String.ofList ([' '].intercalate ws)

/-- A part that is not empty. -/
def part? (cs : List Char) : Option String :=
  if cs.isEmpty then none else some (String.ofList cs)

/-- The name of a family name with its prefix, and the further parts. -/
def ofParts (family given suffix : List Char) : Person :=
  let (leading, rest) := splitFamily (Text.words family)
  if leading.isEmpty then
    { name := String.ofList family, given := part? given, suffix := part? suffix }
  else
    { name := joinWords rest, leading := some (joinWords leading)
      given := part? given, suffix := part? suffix }

/-- Reads a name of up to three parts between commas. -/
def ofText (s : String) : Except PersonFault Person :=
  match (s.toList.splitOn ',').map Text.trim with
  -- a missing family name is reported before further commas
  | [] | [] :: _ => .error .nameless
  | [family] => .ok (ofParts family [] [])
  | [family, given] => .ok (ofParts family given [])
  | [family, given, suffix] => .ok (ofParts family given suffix)
  | _ => .error .tooManyCommas

/-- The written form of a name from the parts to be shown. -/
def writtenParts (name : String) (leading given suffix : Option String) : String :=
  let family := match leading with
    | some p => p ++ " " ++ name
    | none => name
  let withGiven := match given with
    | some g => family ++ ", " ++ g
    | none => family
  match suffix with
  | some s => withGiven ++ ", " ++ s
  | none => withGiven

/-- The written form of a name; the pseudonym is not shown. -/
def written (p : Person) : String :=
  let shown (part : Option String) := part.filter (· ≠ "")
  writtenParts p.name (shown p.leading) (shown p.given) (shown p.suffix)

end Person

end Bibliograph
