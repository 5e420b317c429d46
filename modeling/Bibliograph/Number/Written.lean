import Bibliograph.Number.Shortest
import Bibliograph.Text.Blank
import Bibliograph.Text.Digit

/-!
# Numbers as text

Main definitions:

* `Number.Layout`: when a decimal is written with an exponent, and how the exponent looks;
* `Number.Binary64.written`: the shortest text that reads back;
* `Number.readBinary64?`, `Number.readInt?`: the number that a text writes;
* `Number.padded`, `Number.decimal`: an integer with and without zeros in front;
* `Number.digitLimit`, `Number.isWithinLimit`: the integers that may be written in decimal digits;
* `Number.excess?`: the digits of a text that are too many to be read.

Main results:

* `Number.length_padded`: a padded number is at least as wide as asked;
* `Number.isWithinLimit_iff`: the integers within the limit lie below a power of ten.
-/

set_option autoImplicit false

namespace Bibliograph.Number

/-! ### Writing -/

/-- A decimal is written without an exponent while its point falls after more than `lowest` and at
most `highest` digits, with an exponent of at least `width` digits otherwise. -/
structure Layout where
  lowest : Int
  highest : Int
  width : Nat
  deriving Repr, DecidableEq

/-- Up to sixteen digits stand before the point and up to three zeros behind it; the exponent has
two digits or more and always a sign. -/
def plainLayout : Layout where
  lowest := -4
  highest := 16
  width := 2

/-- The digits of a number. -/
def natDigits (n : Nat) : List Char :=
  Nat.toDigits 10 n

/-- Zeros in front up to `width` characters. -/
def zeroFill (width : Nat) (cs : List Char) : List Char :=
  List.replicate (width - cs.length) '0' ++ cs

/-- A positive decimal in the given layout.  Without an exponent at least one digit stands on each
side of the point. -/
def Layout.write (l : Layout) (d : Decimal) : List Char :=
  let digits := natDigits d.digits
  let point : Int := d.scale + digits.length
  if l.lowest < point ∧ point ≤ l.highest then
    if point ≤ 0 then '0' :: '.' :: (List.replicate (-point).toNat '0' ++ digits)
    else
      let whole := digits.take point.toNat
      let fraction := digits.drop point.toNat
      whole ++ List.replicate (point.toNat - whole.length) '0' ++
        '.' :: (if fraction.isEmpty then ['0'] else fraction)
  else
    let mantissa := match digits with
      | [c] => [c]
      | c :: rest => c :: '.' :: rest
      | [] => []
    let exponent := point - 1
    mantissa ++ 'e' :: (if exponent < 0 then '-' else '+') ::
      zeroFill l.width (natDigits exponent.natAbs)

/-- The shortest text that reads back as the number. -/
def Binary64.written : Binary64 → String
  | .infinite negative => if negative then "-inf" else "inf"
  | .finite negative m e =>
    let body := if m = 0 then ['0', '.', '0'] else plainLayout.write (shortest m e)
    String.ofList (if negative then '-' :: body else body)

/-- An integer with zeros between sign and digits up to `width` characters, the sign included. -/
def padded (width : Nat) (n : Int) : List Char :=
  if n < 0 then '-' :: zeroFill (width - 1) (natDigits n.natAbs)
  else zeroFill width (natDigits n.natAbs)

/-- An integer in decimal digits. -/
def decimal (n : Int) : String :=
  String.ofList (padded 0 n)

theorem length_zeroFill (width : Nat) (cs : List Char) :
    (zeroFill width cs).length = max width cs.length := by
  simp [zeroFill]; omega

theorem length_padded (width : Nat) (n : Int) : width ≤ (padded width n).length := by
  unfold padded
  split
  · rw [List.length_cons, length_zeroFill]
    omega
  · rw [length_zeroFill]
    omega

/-! ### The limit of digits -/

/-- Integers with more decimal digits are neither written nor read. -/
def digitLimit : Nat := 4300

/-- Whether an integer can be written in decimal digits, the sign apart. -/
def isWithinLimit (n : Int) : Bool :=
  (natDigits n.natAbs).length ≤ digitLimit

theorem isWithinLimit_iff (n : Int) : isWithinLimit n ↔ n.natAbs < Nat.pow 10 digitLimit := by
  rw [isWithinLimit, decide_eq_true_iff, natDigits,
    Nat.length_toDigits_le_iff (by decide) (by decide), Nat.pow_eq]

/-- The least number with too many digits. -/
theorem isWithinLimit_pow_digitLimit : isWithinLimit (Nat.pow 10 digitLimit) = false := by
  rw [Bool.eq_false_iff, ne_eq, isWithinLimit_iff, Int.natAbs_natCast]
  exact Nat.lt_irrefl _

/-- What is said where an integer has too many digits; `found` tells how many were to be read. -/
def limitMessage (found : String) : String :=
  "Exceeds the limit (" ++ decimal digitLimit ++ " digits) for integer string conversion" ++
    found ++ "; use sys.set_int_max_str_digits() to increase the limit"

/-- What is said where an integer is to be written. -/
def unwritable : String :=
  limitMessage ""

/-- What is said where that many digits are to be read. -/
def unreadable (count : Nat) : String :=
  limitMessage (": value has " ++ decimal count ++ " digits")

/-! ### Reading -/

/-- A sign in front of a number, if there is one, and what follows. -/
def takeSign : List Char → Bool × List Char
  | '-' :: cs => (true, cs)
  | '+' :: cs => (false, cs)
  | cs => (false, cs)

/-- Digits, where single underscores may stand between two digits. -/
def digitGroup? (cs : List Char) : Option (List Char) :=
  let runs := cs.splitOnP (· == '_')
  if runs.all (fun run => !run.isEmpty && run.all Text.isDigit) then some runs.flatten else none

/-- An exponent: a sign, if there is one, and digits. -/
def readExponent? (cs : List Char) : Option Int :=
  let (negative, digits) := takeSign cs
  if digits.isEmpty then none
  else do
    let n ← Text.natOfDigits? (← digitGroup? digits)
    return if negative then -n else n

/-- Splits at the first character of the class. -/
def splitAtFirst (p : Char → Bool) (cs : List Char) : List Char × Option (List Char) :=
  match cs.span fun c => !p c with
  | (before, []) => (before, none)
  | (before, _ :: after) => (before, some after)

/-- An unsigned decimal with an optional fraction and an optional exponent. -/
def readDecimal? (cs : List Char) : Option Decimal := do
  let (mantissa, exponentText) := splitAtFirst (fun c => c == 'e' || c == 'E') cs
  let exponent ← match exponentText with
    | none => some 0
    | some text => readExponent? text
  let (wholeText, fractionText) := splitAtFirst (· == '.') mantissa
  let group (text : List Char) := if text.isEmpty then some [] else digitGroup? text
  let whole ← group wholeText
  let fraction ← group (fractionText.getD [])
  if whole.isEmpty && fraction.isEmpty then none
  else return ⟨← Text.natOfDigits? (whole ++ fraction), exponent - fraction.length⟩

/-- What a text says in the place of a number of the 64-bit format. -/
inductive Literal where
  | number (x : Binary64)
  | notANumber
  deriving Repr, DecidableEq

/-- The number of the 64-bit format that a text writes: a decimal, or a word for an infinity or for
no number at all. -/
def readBinary64? (cs : List Char) : Option Literal :=
  let (negative, body) := takeSign (Text.trim cs)
  let word := String.ofList (body.map Char.toLower)
  if word = "inf" ∨ word = "infinity" then some (.number (.infinite negative))
  else if word = "nan" then some .notANumber
  else (readDecimal? body).map fun d => .number (.ofDecimal negative d.digits d.scale)

/-- The digit of a base up to sixteen. -/
def baseDigit? (base : Nat) (c : Char) : Option Nat :=
  let value? := (Text.digitValue? c).orElse fun _ =>
    if 'a' ≤ c ∧ c ≤ 'z' then some (c.toNat - 'a'.toNat + 10)
    else if 'A' ≤ c ∧ c ≤ 'Z' then some (c.toNat - 'A'.toNat + 10)
    else none
  value?.filter (· < base)

/-- The number that a nonempty run of digits writes in the base. -/
def readNat? (base : Nat) (cs : List Char) : Option Nat :=
  if cs.isEmpty then none
  else cs.foldl (fun acc c => acc.bind fun n => (baseDigit? base c).map (base * n + ·)) (some 0)

/-- The integer that a text writes in the base: blanks around it and a sign are allowed. -/
def readInt? (base : Nat) (cs : List Char) : Option Int :=
  let (negative, digits) := takeSign (Text.trim cs)
  (readNat? base digits).map fun n => if negative then -(n : Int) else n

/-- The number of decimal digits at the beginning of an integer, if there are too many. -/
def excess? (cs : List Char) : Option Nat :=
  let digits := (takeSign (Text.trim cs)).2.takeWhile Text.isDigit
  if digitLimit < digits.length then some digits.length else none

end Bibliograph.Number
