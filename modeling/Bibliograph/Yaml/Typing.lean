import Bibliograph.Yaml.Node
import Bibliograph.Yaml.Problem
import Bibliograph.Yaml.Timestamp

/-!
# Values of scalars

A scalar without a tag and without quotes is typed by its text: truth values, whole numbers in four
bases or in groups of sixty, numbers with a point, timestamps and a few marks.  Everything else is
text.

Main definitions:

* `Yaml.isWhole`, `Yaml.isFractional`: the texts of numbers;
* `Yaml.impliedTag`: the tag that a text suggests;
* `Yaml.whole?`, `Yaml.fractional?`: the number that a text writes;
* `Yaml.excess?`: the digits of a whole number that are too many;
* `Yaml.Tag.read`: the value of a text under a tag.

Main results:

* `Yaml.impliedTag_nil`: an empty text stands for nothing;
* `Yaml.Tag.read_text`: under the tag of texts every text stands for itself.
-/

set_option autoImplicit false

namespace Bibliograph.Yaml

/-! ### Words -/

/-- The words for truth values in small letters. -/
def truthWords : List (String × Bool) := [
  ("yes", true), ("no", false), ("true", true), ("false", false), ("on", true), ("off", false)]

/-- The three ways to write a word: in small letters, with one capital, in capitals. -/
def spellings (word : String) : List String :=
  let cs := word.toList
  [word, String.ofList ((cs.take 1).map Char.toUpper ++ cs.drop 1),
    String.ofList (cs.map Char.toUpper)]

/-- Whether the text is one of the words in one of its spellings. -/
def isSpelling (words : List String) (cs : List Char) : Bool :=
  (words.flatMap spellings).contains (String.ofList cs)

/-! ### The texts of numbers -/

/-- Whether the text starts with a digit and goes on with digits and underscores. -/
def isDigits : List Char → Bool
  | [] => false
  | c :: cs => c.isDigit && cs.all fun c => c.isDigit || c == '_'

/-- Whether the text is a number below sixty of one or two digits. -/
def isSixtieth : List Char → Bool
  | [c] => c.isDigit
  | [c, d] => '0' ≤ c && c ≤ '5' && d.isDigit
  | _ => false

/-- Whether the text consists of digits of a base and underscores, and of at least one of these. -/
def isInBase (base : Nat) (cs : List Char) : Bool :=
  !cs.isEmpty && cs.all fun c => c == '_' || (c.isAlphanum && (Number.baseDigit? base c).isSome)

/-- Whether the text is a whole number: in base two, eight, ten or sixteen, or in groups of
sixty. -/
def isWhole (cs : List Char) : Bool :=
  match (Number.takeSign cs).2 with
  | '0' :: 'b' :: ds => isInBase 2 ds
  | '0' :: 'x' :: ds => isInBase 16 ds
  | ['0'] => true
  | '0' :: ds => isInBase 8 ds
  | body =>
    match body.splitOnP (· == ':') with
    | [] => false
    | first :: groups => isDigits first && groups.all isSixtieth

/-- Whether the text is nothing or an exponent with a sign. -/
def isExponent : List Char → Bool
  | [] => true
  | [_] => false
  | e :: sign :: ds =>
    (e == 'e' || e == 'E') && (sign == '+' || sign == '-') && !ds.isEmpty && ds.all Char.isDigit

/-- Whether the text is a number with a point, or the mark for an infinity or for no number. -/
def isFractional (cs : List Char) : Bool :=
  let (whole, fraction) := Number.splitAtFirst (· == '.') (Number.takeSign cs).2
  let isDigit (c : Char) : Bool := c.isDigit || c == '_'
  match whole, fraction with
  | _, none => false
  | [], some fraction =>
    let word := String.ofList fraction
    let signed := cs.head? != some '.'
    ["inf", "Inf", "INF"].contains word ||
      (!signed && (["nan", "NaN", "NAN"].contains word ||
        (isDigits (fraction.takeWhile isDigit) && isExponent (fraction.dropWhile isDigit))))
  | whole, some fraction =>
    match whole.splitOnP (· == ':') with
    | [] => false
    | [whole] => isDigits whole && isExponent (fraction.dropWhile isDigit)
    | first :: groups => isDigits first && groups.all isSixtieth && fraction.all isDigit

/-- The tag that a text suggests. -/
def impliedTag (cs : List Char) : Tag :=
  if cs.isEmpty || cs == ['~'] || isSpelling ["null"] cs then .null
  else if isSpelling (truthWords.map Prod.fst) cs then .bool
  else if isFractional cs then .float
  else if isWhole cs then .int
  else if cs == ['<', '<'] then .merge
  else if cs == ['='] then .value
  else if Timestamp.isImplied cs then .timestamp
  else .text

@[simp] theorem impliedTag_nil : impliedTag [] = .null := by
  simp [impliedTag]

/-! ### Values -/

/-- The sum of the groups, each of which counts sixty times as much as the one behind it. -/
def sixties (groups : List Int) : Int :=
  groups.foldl (fun n g => 60 * n + g) 0

/-- The whole number that a text writes. -/
def whole? (cs : List Char) : Option Int :=
  let (negative, body) := Number.takeSign (cs.filter (· != '_'))
  let magnitude? : Option Int :=
    match body with
    | '0' :: 'b' :: ds => Number.readInt? 2 ds
    | '0' :: 'x' :: ds => Number.readInt? 16 ds
    | '0' :: 'o' :: ds => (Number.readNat? 8 ds).map Int.ofNat
    | '0' :: ds => if ds.isEmpty then some 0 else Number.readInt? 8 ds
    | body => ((body.splitOnP (· == ':')).mapM (Number.readInt? 10)).map sixties
  magnitude?.map fun n => if negative then -n else n

/-- The number of digits where a whole number in base ten, or a group of sixty of it, has too many
of them. -/
def excess? (cs : List Char) : Option Nat :=
  match (Number.takeSign (cs.filter (· != '_'))).2 with
  | '0' :: _ => none
  | body => (body.splitOnP (· == ':')).findSome? Number.excess?

/-- The number that a text with a point writes, in groups of sixty if colons part it. -/
def fractional? (cs : List Char) : Option Number.Literal :=
  let (negative, body) := Number.takeSign ((cs.filter (· != '_')).map Char.toLower)
  let signed (x : Number.Binary64) : Number.Literal := .number (if negative then x.neg else x)
  match String.ofList body with
  | ".inf" => some (signed (.infinite false))
  | ".nan" => some .notANumber
  | _ => do
    let groups ← (body.splitOnP (· == ':')).mapM Number.readBinary64?
    match groups with
    | [.number x] => return signed x
    | [.notANumber] => return .notANumber
    | groups =>
      let terms ← groups.reverse.zipIdx.mapM fun p =>
        match p.1 with
        | .number x => some (x.scale (Nat.pow 60 p.2))
        | .notANumber => none
      return signed (terms.foldl Number.Binary64.add (.ofInt 0))

/-- The value of a text under a tag. -/
def Tag.read (t : Tag) (text : String) : Except Problem Value :=
  let cs := text.toList
  let found (v : Option Value) : Except Problem Value :=
    match v with
    | some v => .ok v
    | none => .error (.noSuchScalar text)
  match t with
  | .text => .ok (.text text)
  | .null => .ok .null
  | .bool => found ((truthWords.lookup (String.ofList (cs.map Char.toLower))).map .bool)
  | .int =>
    match excess? cs with
    | some count => .error (.tooManyDigits count)
    | none => found ((whole? cs).map .int)
  | .float => found ((fractional? cs).map fun
    | .number x => .float x
    | .notANumber => .notANumber 0)
  | .timestamp => found ((Timestamp.read? cs).bind Timestamp.value?)
  | .sequence => .error (.wrongKind "sequence")
  | .pairs => .error (.wrongKind "sequence")
  | .mapping => .error (.wrongKind "mapping")
  | .merge => .error .unknownTag
  | .value => .error .unknownTag
  | .unknown => .error .unknownTag

theorem Tag.read_text (text : String) : Tag.read .text text = .ok (.text text) := rfl

end Bibliograph.Yaml
