import Misfit.Number.Shortest

/-! Floating-point numbers written in positional notation, whatever their size. -/

namespace Misfit

/-- A decimal in positional notation: zeros fill the places up to the point on either side. -/
def ShortDecimal.positional (d : ShortDecimal) : String :=
  let digits := Decimal.digits d.coefficient
  match d.exponent with
  | .ofNat zeros => String.ofList (digits ++ List.replicate zeros '0')
  | .negSucc further =>
    -- One digit at least stands before the point.
    let places := further + 1
    let padded := List.replicate (places + 1 - digits.length) '0' ++ digits
    let whole := padded.length - places
    String.ofList (padded.take whole ++ '.' :: padded.drop whole)

namespace Binary64

/-- Whole numbers below this bound keep the mark `.0`, which tells them from integers. -/
def wholeBound : Nat := Nat.pow 10 16

/-- A finite magnitude: exact with one decimal when it is a whole number below the bound, else the
shortest decimal that reads back. -/
def magnitudeText (f : Binary64) : String :=
  match f.natAbs? with
  | some n => if n < wholeBound then Decimal.ofNat n ++ ".0" else f.shortest.positional
  | none => f.shortest.positional

/-- A floating-point number in positional notation; the sign of zero is kept. -/
def text (f : Binary64) : String :=
  if f.isNaN then "nan"
  else
    let magnitude := if f.isFinite then f.magnitudeText else "inf"
    if f.isNegative then "-" ++ magnitude else magnitude

/-- What the text of a floating-point number can be, apart from a sign before it. -/
inductive Spelling : String → Prop where
  | infinite : Spelling "inf"
  | whole (n : Nat) : Spelling (Decimal.ofNat n ++ ".0")
  | decimal (d : ShortDecimal) : Spelling d.positional

/-- A magnitude is written in one of these ways. -/
theorem spelling_magnitudeText (f : Binary64) : Spelling f.magnitudeText := by
  -- Small whole numbers have the mark, and all others are written as their shortest decimal.
  unfold magnitudeText
  split
  · split
    · exact .whole _
    · exact .decimal _
  · exact .decimal _

/-- A number that has a sign is written in one of these ways, behind the sign if that is shown. -/
theorem text_cases (f : Binary64) :
    f.text = "nan" ∨ ∃ unsigned, Spelling unsigned ∧
      (f.text = unsigned ∨ f.text = "-" ++ unsigned) := by
  unfold text
  split
  · exact .inl rfl
  · -- The magnitude of a number that is not finite has a name.
    have spelled : Spelling (if f.isFinite then f.magnitudeText else "inf") := by
      split
      · exact spelling_magnitudeText f
      · exact .infinite
    refine .inr ⟨_, spelled, ?_⟩
    dsimp only
    split
    · exact .inr rfl
    · exact .inl rfl

end Binary64

end Misfit
