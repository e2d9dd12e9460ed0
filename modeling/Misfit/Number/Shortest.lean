import Misfit.Number.Binary64
import Misfit.Number.Decimal

/-! The shortest decimal that reads back as a given floating-point number, in exact arithmetic. -/

namespace Misfit

/-- A decimal number `coefficient * 10 ^ exponent`. -/
structure ShortDecimal where
  coefficient : Nat
  exponent : Int
deriving DecidableEq

/-- The magnitudes that round to one floating-point number, counted in quarters of its last place:
the range `low` to `high` around `middle`, its ends included when they round inwards. -/
structure RoundingRange where
  low : Nat
  middle : Nat
  high : Nat
  scale : Int
  closed : Bool
deriving DecidableEq

namespace RoundingRange

/-- The magnitudes that round to the magnitude of a finite number. -/
def of (f : Binary64) : RoundingRange where
  -- Halfway to each neighbour is two quarters, or one below the least number of a power of two.
  low := 4 * f.mantissa - if f.isPowerEdge then 1 else 2
  middle := 4 * f.mantissa
  high := 4 * f.mantissa + 2
  scale := f.scale - 2
  closed := f.mantissa % 2 == 0

/-- The factor that carries a count of quarters to the common unit shared with `10 ^ exponent`. -/
def binaryFactor (range : RoundingRange) (exponent : Int) : Nat :=
  Nat.pow 2 range.scale.toNat * Nat.pow 10 (-exponent).toNat

/-- The factor that carries a multiple of `10 ^ exponent` to the common unit. -/
def decimalFactor (range : RoundingRange) (exponent : Int) : Nat :=
  Nat.pow 10 exponent.toNat * Nat.pow 2 (-range.scale).toNat

/-- Whether `coefficient * 10 ^ exponent` lies in the range. -/
def holds (range : RoundingRange) (coefficient : Nat) (exponent : Int) : Bool :=
  let low := range.low * range.binaryFactor exponent
  let high := range.high * range.binaryFactor exponent
  let point := coefficient * range.decimalFactor exponent
  if range.closed then low ≤ point && point ≤ high else low < point && point < high

/-- The multiple of `10 ^ exponent` that lies in the range nearest to its middle, if any does;
of two equally near ones it is the greater. -/
def nearest? (range : RoundingRange) (exponent : Int) : Option ShortDecimal :=
  let middle := range.middle * range.binaryFactor exponent
  let unit := range.decimalFactor exponent
  -- If any multiple lies in the range, then so does one of the middle's two neighbours.
  let below := middle / unit
  match range.holds below exponent, range.holds (below + 1) exponent with
  | true, true =>
    if middle - below * unit < (below + 1) * unit - middle then some ⟨below, exponent⟩
    else some ⟨below + 1, exponent⟩
  | true, false => some ⟨below, exponent⟩
  | false, true => some ⟨below + 1, exponent⟩
  | false, false => none

/-- The exponents tried, from the coarsest that can matter down to that of the finest number. -/
def exponents (range : RoundingRange) : List Int :=
  -- A power of ten with as many zeros as the whole part has digits exceeds the range's middle.
  let whole := range.high * range.binaryFactor 0 / range.decimalFactor 0
  let coarsest := (Decimal.digits whole).length
  (List.range (coarsest + 1075)).map fun (step : Nat) => (coarsest : Int) - step

end RoundingRange

/-- The shortest decimal that reads back as the finite number's magnitude: the coarsest power of
ten with a multiple that rounds to it, and of those multiples the nearest. -/
def Binary64.shortest (f : Binary64) : ShortDecimal :=
  let range := RoundingRange.of f
  -- The last exponent tried writes every finite number exactly, so the search succeeds.
  (range.exponents.findSome? range.nearest?).getD ⟨0, 0⟩

end Misfit
