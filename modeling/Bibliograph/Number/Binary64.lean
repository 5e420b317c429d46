/-!
# Binary floating point numbers

A 64-bit number that is not a not-a-number, held exactly: a sign with `significand · 2 ^ exponent`,
or an infinity.  Comparison is by value, so the two zeros are equal, and a number may be compared
with an integer of any size.

Main definitions:

* `Number.twoTo`, `Number.tenTo`: powers;
* `Number.Binary64`: the numbers;
* `Number.Binary64.ofRatio`: the number nearest to a fraction, a tie going to the even significand;
* `Number.Binary64.add`, `Number.Binary64.mul`: correctly rounded sum and product;
* `Number.Binary64.equals`, `Number.Binary64.equalsInt`: comparison by value.
-/

set_option autoImplicit false

namespace Bibliograph.Number

/-- A power of two. -/
def twoTo (n : Nat) : Nat :=
  Nat.pow 2 n

/-- A power of ten. -/
def tenTo (n : Nat) : Nat :=
  Nat.pow 10 n

/-- A number of the 64-bit binary format. -/
inductive Binary64 where
  | finite (negative : Bool) (significand : Nat) (exponent : Int)
  | infinite (negative : Bool)
  deriving Repr, DecidableEq

namespace Binary64

/-- A significand has at most this many bits. -/
def precision : Nat := 53

/-- The exponent of the smallest positive number. -/
def minExponent : Int := -1074

/-- The exponent of the largest finite numbers. -/
def maxExponent : Int := 971

/-! ### Rounding -/

/-- The quotient rounded to the nearest natural number, a tie going to the even one. -/
def roundQuotient (num den : Nat) : Nat :=
  let q := num / den
  let twice := 2 * (num % den)
  if twice > den ∨ (twice = den ∧ q % 2 = 1) then q + 1 else q

/-- The fraction `num / den` divided by `2 ^ e`, as a fraction again. -/
def scaled (num den : Nat) (e : Int) : Nat × Nat :=
  if e ≥ 0 then (num, den * twoTo e.toNat) else (num * twoTo (-e).toNat, den)

/-- The exponent at which the fraction has exactly `precision` bits before the point, or the least
exponent where that one is lower. -/
def exponentFor (num den : Nat) : Int :=
  let guess : Int := (Nat.log2 num : Int) - Nat.log2 den - precision
  let (n, d) := scaled num den guess
  let e := if n / d < twoTo precision then guess else guess + 1
  max e minExponent

/-- The number nearest to `num / den`; a tie goes to the even significand, and what rounds to
`2 ^ 1024` or more becomes infinite. -/
def ofRatio (negative : Bool) (num den : Nat) : Binary64 :=
  if num = 0 then .finite negative 0 minExponent
  else
    let e := exponentFor num den
    let (n, d) := scaled num den e
    let m := roundQuotient n d
    -- rounding up may give one bit too many
    let (m, e) := if m = twoTo precision then (twoTo (precision - 1), e + 1) else (m, e)
    if e > maxExponent then .infinite negative else .finite negative m e

/-- The number nearest to an integer. -/
def ofInt (n : Int) : Binary64 :=
  ofRatio (n < 0) n.natAbs 1

/-- The number nearest to `digits · 10 ^ scale`. -/
def ofDecimal (negative : Bool) (digits : Nat) (scale : Int) : Binary64 :=
  let magnitude : Int := (Nat.log2 digits : Int) / 3 + scale
  if digits = 0 ∨ magnitude + 1 < -400 then .finite negative 0 minExponent
  else if scale > 400 then .infinite negative
  else if scale ≥ 0 then ofRatio negative (digits * tenTo scale.toNat) 1
  else ofRatio negative digits (tenTo (-scale).toNat)

/-! ### Arithmetic -/

/-- The value of a finite number as a multiple of `2 ^ minExponent`, the finest step there is. -/
def steps : Binary64 → Int
  | .finite negative m e =>
    let n : Int := (m * twoTo (e - minExponent).toNat : Nat)
    if negative then -n else n
  | .infinite _ => 0

/-- The number nearest to a whole number of finest steps. -/
def ofSteps (negativeZero : Bool) (n : Int) : Binary64 :=
  ofRatio (if n = 0 then negativeZero else n < 0) n.natAbs (twoTo (-minExponent).toNat)

/-- The correctly rounded sum; of two infinities the first decides. -/
def add : Binary64 → Binary64 → Binary64
  | .infinite s, _ => .infinite s
  | _, .infinite s => .infinite s
  | .finite s m e, .finite t n f =>
    ofSteps (s && t) ((finite s m e).steps + (finite t n f).steps)

/-- The correctly rounded product of a number and a positive integer. -/
def scale (x : Binary64) (n : Nat) : Binary64 :=
  match x with
  | .infinite s => .infinite s
  | .finite s _ _ => ofSteps s (x.steps * n)

/-- The number with the other sign. -/
def neg : Binary64 → Binary64
  | .finite s m e => .finite (!s) m e
  | .infinite s => .infinite (!s)

/-! ### Comparison -/

/-- Whether two numbers have the same value. -/
def equals : Binary64 → Binary64 → Bool
  | .infinite s, .infinite t => s == t
  | .finite s m e, .finite t n f => (finite s m e).steps == (finite t n f).steps
  | _, _ => false

/-- Whether the value is this integer. -/
def equalsInt : Binary64 → Int → Bool
  | .infinite _, _ => false
  | .finite s m e, n => (finite s m e).steps == n * (twoTo (-minExponent).toNat : Nat)

/-- Whether the value is zero. -/
def isZero (x : Binary64) : Bool :=
  x.equalsInt 0

end Binary64

end Bibliograph.Number
