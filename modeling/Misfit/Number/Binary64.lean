/-! Binary floating-point numbers of 64 bits: their fields, exact magnitude and equality. -/

namespace Misfit

/-- A floating-point number, given by its bits: sign, eleven of exponent, fifty-two of fraction. -/
structure Binary64 where
  bits : UInt64

namespace Binary64

/-- The sign bit, set on negative numbers and on negative zero. -/
def isNegative (f : Binary64) : Bool := f.bits.toNat / Nat.pow 2 63 == 1

/-- The exponent field, as stored. -/
def exponentField (f : Binary64) : Nat := f.bits.toNat / Nat.pow 2 52 % Nat.pow 2 11

/-- The fraction field, as stored. -/
def fractionField (f : Binary64) : Nat := f.bits.toNat % Nat.pow 2 52

/-- The largest exponent field marks the values that are not finite. -/
def isFinite (f : Binary64) : Bool := f.exponentField != 2047

/-- A value that is no number: the largest exponent with a fraction. -/
def isNaN (f : Binary64) : Bool := !f.isFinite && f.fractionField != 0

/-- Either of the two zeros. -/
def isZero (f : Binary64) : Bool := f.exponentField == 0 && f.fractionField == 0

/-- The integer `m` with which a finite magnitude is `m * 2 ^ f.scale`. -/
def mantissa (f : Binary64) : Nat :=
  -- The smallest exponent field lacks the leading one of all others.
  if f.exponentField == 0 then f.fractionField else Nat.pow 2 52 + f.fractionField

/-- The power of two of the last place of a finite magnitude. -/
def scale (f : Binary64) : Int := (max f.exponentField 1 : Nat) - 1075

/-- Whether a finite magnitude is the least of its power of two, so that its lower neighbour is
half as far away as its upper one. -/
def isPowerEdge (f : Binary64) : Bool := f.fractionField == 0 && 1 < f.exponentField

/-- Numeric equality: the two zeros are equal, and a value that is no number equals nothing. -/
instance : BEq Binary64 where
  beq f g := !f.isNaN && !g.isNaN && (f.bits == g.bits || (f.isZero && g.isZero))

/-- The finite magnitude as a whole number, if it is one. -/
def natAbs? (f : Binary64) : Option Nat :=
  let multiplier := Nat.pow 2 f.scale.toNat
  let divisor := Nat.pow 2 (-f.scale).toNat
  if f.mantissa % divisor == 0 then some (f.mantissa * multiplier / divisor) else none

end Binary64

end Misfit
