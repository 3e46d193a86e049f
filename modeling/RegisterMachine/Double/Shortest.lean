import RegisterMachine.Double

namespace RegisterMachine

/-- The number `digits * 10 ^ exponent`. -/
structure Decimal where
  digits : Nat
  exponent : Int
  deriving DecidableEq, Repr

/-- A positive double with the numbers that round to it, as fractions over one denominator.
The two ends round to it as well when `closed` is set. -/
structure RoundingInterval where
  low : Nat
  value : Nat
  high : Nat
  denominator : Nat
  closed : Bool

/-- The interval reaches half way to both neighbours. The neighbour below a power of two is only
half as far away as the one above, unless the numbers below it are spaced alike. -/
def Double.roundingInterval (d : Double) : RoundingInterval :=
  let unit := 1 <<< (d.exponent - 2).toNat
  let below := if d.fraction = 0 ∧ 1 < d.exponentField then 1 else 2
  { low := (4 * d.significand - below) * unit
    value := 4 * d.significand * unit
    high := (4 * d.significand + 2) * unit
    denominator := 1 <<< (2 - d.exponent).toNat
    closed := d.significand % 2 = 0 }

namespace RoundingInterval

/-- Whether a decimal number rounds to the double. -/
def contains (w : RoundingInterval) (c : Decimal) : Bool :=
  let scaled := c.digits * Nat.pow 10 c.exponent.toNat * w.denominator
  let scale := Nat.pow 10 (-c.exponent).toNat
  if w.closed then w.low * scale ≤ scaled ∧ scaled ≤ w.high * scale
  else w.low * scale < scaled ∧ scaled < w.high * scale

/-- Counts the zeros between the decimal point and the first digit of a fraction below one. -/
def leadingZeros : Nat → Nat → Nat → Nat
  | 0, _, _ => 0
  | fuel + 1, numerator, denominator =>
    if numerator * 10 < denominator then leadingZeros fuel (numerator * 10) denominator + 1 else 0

/-- The power of ten just above the value. No double has more than 323 leading zeros. -/
def magnitude (w : RoundingInterval) : Int :=
  if w.denominator ≤ w.value then (Nat.toDigits 10 (w.value / w.denominator)).length
  else -(leadingZeros 324 w.value w.denominator : Int)

/-- The multiple of `10 ^ exponent` that rounds to the double. Of two such neighbours the nearer
one is taken, and of two equally near ones the larger. -/
def onGrid? (w : RoundingInterval) (exponent : Int) : Option Decimal :=
  let numerator := w.value * Nat.pow 10 (-exponent).toNat
  let denominator := w.denominator * Nat.pow 10 exponent.toNat
  let below : Decimal := ⟨numerator / denominator, exponent⟩
  let above : Decimal := ⟨numerator / denominator + 1, exponent⟩
  match w.contains below, w.contains above with
  | true, true =>
    if 2 * (numerator % denominator) < denominator then some below else some above
  | true, false => some below
  | false, true => some above
  | false, false => none

end RoundingInterval

/-- The decimal number with the fewest digits that rounds to a positive double. Seventeen digits
always suffice. -/
def Double.shortest (d : Double) : Decimal :=
  let w := d.roundingInterval
  let top := w.magnitude
  ((List.range 17).findSome? fun n => w.onGrid? (top - (n + 1 : Nat))).getD ⟨0, 0⟩

end RegisterMachine
