import Bibliograph.Number.Binary64

/-!
# The shortest decimal that reads back

A finite number is written with the fewest decimal digits that still round to it; of several such
decimals the nearest one is taken.

For one digit, two digits and so on, the two neighbours of the number on the decimal grid of that
many digits are tested against the interval of reals that round to the number.  Seventeen digits
always suffice.

Main definitions:

* `Number.Decimal`: digits with a power of ten;
* `Number.Interval`: the reals that round to a number, as fractions;
* `Number.shortest`: the fewest digits that read back.
-/

set_option autoImplicit false

namespace Bibliograph.Number

/-- The decimal `digits · 10 ^ scale`. -/
structure Decimal where
  digits : Nat
  scale : Int
  deriving Repr, DecidableEq

/-- A positive number `value / unit` and the ends of the interval of reals that round to it, all
three over the same denominator. -/
structure Interval where
  low : Nat
  value : Nat
  high : Nat
  unit : Nat
  closed : Bool
  deriving Repr, DecidableEq

/-- Whether the fraction `num / den` lies in the interval. -/
def Interval.holds (i : Interval) (num den : Nat) : Bool :=
  let x := num * i.unit
  let low := i.low * den
  let high := i.high * den
  (low < x && x < high) || (i.closed && (x == low || x == high))

/-- The reals that round to `m · 2 ^ e`.  The interval is closed exactly when `m` is even, and its
lower half is shorter where the numbers below are closer together. -/
def Interval.around (m : Nat) (e : Int) : Interval :=
  let narrow := m = twoTo (Binary64.precision - 1) ∧ e > Binary64.minExponent
  let up := twoTo (e - 2).toNat
  { low := if narrow then (4 * m - 1) * up else (4 * m - 2) * up
    value := 4 * m * up
    high := (4 * m + 2) * up
    unit := twoTo (2 - e).toNat
    closed := m % 2 = 0 }

/-- Ten to an integer power, as a fraction. -/
def powTen (k : Int) : Nat × Nat :=
  (tenTo k.toNat, tenTo (-k).toNat)

/-- The number of digits before the decimal point of the fraction `num / den`, where zeros just
behind the point count negatively; `guess` is a lower bound. -/
def pointPosition (num den : Nat) : Nat → Int → Int
  | 0, guess => guess
  | fuel + 1, guess =>
    let (p, q) := powTen guess
    if num * q < den * p then guess else pointPosition num den fuel (guess + 1)

/-- The neighbour of the number on the grid of step `10 ^ scale` that lies in the interval, if one
does; of two the nearer, and of two equally near the even one. -/
def Interval.onGrid? (i : Interval) (scale : Int) : Option Decimal :=
  let (p, q) := powTen scale
  let below := i.value * q / (i.unit * p)
  let rest := i.value * q % (i.unit * p)
  let hit (n : Nat) : Bool := n ≠ 0 && i.holds (n * p) q
  let nearer :=
    if 2 * rest < i.unit * p ∨ (2 * rest = i.unit * p ∧ below % 2 = 0) then below else below + 1
  let other := if nearer = below then below + 1 else below
  if hit nearer then some ⟨nearer, scale⟩
  else if hit other then some ⟨other, scale⟩
  else none

/-- The decimal without its last zeros. -/
def Decimal.stripZeros : Nat → Decimal → Decimal
  | 0, d => d
  | fuel + 1, d =>
    if d.digits ≠ 0 ∧ d.digits % 10 = 0 then stripZeros fuel ⟨d.digits / 10, d.scale + 1⟩ else d

/-- The first grid from `used` digits on that has a hit. -/
def Interval.search (i : Interval) (point : Int) : Nat → Nat → Decimal
  | 0, used => ⟨i.value / i.unit, used⟩
  | fuel + 1, used =>
    match i.onGrid? (point - used) with
    | some d => d
    | none => search i point fuel (used + 1)

/-- The shortest decimal that reads back as the positive number `m · 2 ^ e`. -/
def shortest (m : Nat) (e : Int) : Decimal :=
  let i := Interval.around m e
  -- 30103 / 100000 is close to the logarithm of two to the base ten
  let guess : Int := ((Nat.log2 m : Int) + e) * 30103 / 100000 - 1
  let point := pointPosition i.value i.unit 8 guess
  (i.search point 20 1).stripZeros 20

end Bibliograph.Number
