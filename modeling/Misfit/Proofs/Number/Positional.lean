import Misfit.Number.Positional
import Misfit.Proofs.Number.Shortest
import Misfit.Proofs.Text.Reading
import Misfit.Value.Text

/-! Which floating-point numbers are written like integers: the whole ones that are too large to
keep the mark `.0`. -/

namespace Misfit

namespace Decimal

/-- Zeros behind the digits of a number multiply it by powers of ten. -/
theorem digits_mul_pow {n : Nat} (positive : 0 < n) (zeros : Nat) :
    digits (n * 10 ^ zeros) = digits n ++ List.replicate zeros '0' := by
  -- Each further zero is the last digit of ten times as much.
  induction zeros with
  | zero => simp
  | succ zeros ih =>
    have tens : n * 10 ^ (zeros + 1) = 10 * (n * 10 ^ zeros) + 0 := by ring
    have above := Nat.mul_pos positive (Nat.pow_pos (n := zeros) (show 0 < 10 by decide))
    have appended := Nat.toDigits_append_toDigits (d := 0) (show 1 < 10 by decide) above (by decide)
    rw [tens, List.replicate_succ', ← List.append_assoc, ← ih]
    exact appended.symm

/-- No integer is written with a point. -/
theorem not_mem_ofInt (number : Int) : '.' ∉ (ofInt number).toList := by
  have digits : ∀ n, '.' ∉ digits n := by
    intro n member
    have digit := Nat.isDigit_of_mem_toDigits (by decide) (by decide) member
    cases digit
  -- Besides the digits there is at most a sign.
  cases number with
  | ofNat n => simpa [ofInt, ofNat] using digits n
  | negSucc n => simpa [ofInt, ofNat] using digits (n + 1)

/-- Integers are told by what is written of them. -/
theorem ofInt_inj {a b : Int} (same : ofInt a = ofInt b) : a = b := by
  -- Nothing follows, so no digit does.
  have nothing : Ends Char.isDigit [] := by simp [Ends]
  exact (readsBack_ofInt a b nothing nothing (by simp [same])).1

end Decimal

namespace ShortDecimal

/-- The natural number that a decimal is, if it has no places behind the point. -/
def whole (d : ShortDecimal) : Nat := d.coefficient * 10 ^ d.exponent.toNat

/-- A decimal above zero without places behind the point is written like a natural number. -/
theorem positional_of_nonneg {d : ShortDecimal} (nonneg : 0 ≤ d.exponent)
    (positive : 0 < d.coefficient) : d.positional = Decimal.ofNat d.whole := by
  -- Zeros behind the digits stand for the powers of ten.
  obtain ⟨coefficient, exponent⟩ := d
  obtain ⟨zeros, rfl⟩ := Int.eq_ofNat_of_zero_le nonneg
  exact congrArg String.ofList (Decimal.digits_mul_pow positive zeros).symm

/-- A decimal with places behind the point is written with one. -/
theorem point_mem_positional {d : ShortDecimal} (negative : d.exponent < 0) :
    '.' ∈ d.positional.toList := by
  -- The places behind the point have an exponent below zero.
  obtain ⟨coefficient, exponent⟩ := d
  obtain ⟨further, rfl⟩ := Int.eq_negSucc_of_lt_zero negative
  simp [positional]

end ShortDecimal

namespace Binary64

variable {f : Binary64}

/-- The integer of some magnitude that has the sign of a number. -/
def signed (f : Binary64) (magnitude : Nat) : Int :=
  if f.isNegative then -(magnitude : Int) else magnitude

/-- Whether a number is whole and reaches the bound from which on the mark is missing. -/
def IsLargeWhole (f : Binary64) : Prop := ∃ whole, f.natAbs? = some whole ∧ wholeBound ≤ whole

/-- A finite number is its magnitude, behind a minus sign if it is negative. -/
theorem text_of_isFinite (finite : f.isFinite = true) :
    f.text = if f.isNegative then "-" ++ f.magnitudeText else f.magnitudeText := by
  -- The two words for numbers that are not finite are left out.
  have number : f.isNaN = false := by simp [isNaN, finite]
  simp [text, number, finite]

/-- A number that is broken, or not large, is written with a point. -/
theorem point_mem_magnitudeText (small : ¬f.IsLargeWhole) : '.' ∈ f.magnitudeText.toList := by
  -- A number that is not written as an integer is small or not whole.
  unfold magnitudeText
  split
  · next whole found =>
    split
    · simp
    · next large => exact absurd ⟨whole, found, Nat.le_of_not_lt large⟩ small
  · next broken =>
    -- The shortest decimal of a broken number has places behind the point.
    apply ShortDecimal.point_mem_positional
    by_contra nonneg
    have whole := shortest_exponent_nonneg_iff.mp (Int.not_lt.mp nonneg)
    rw [broken] at whole
    cases whole

/-- A large whole number is not zero, nor is its shortest decimal, which is whole. -/
theorem IsLargeWhole.shortest (large : f.IsLargeWhole) :
    0 ≤ f.shortest.exponent ∧ 0 < f.shortest.coefficient := by
  obtain ⟨whole, found, bound⟩ := large
  refine ⟨shortest_exponent_nonneg_iff.mpr (by simp [found]), shortest_coefficient_pos ?_⟩
  by_contra none
  -- Nothing but zero has no mantissa.
  have zero : f.mantissa = 0 := by omega
  simp [natAbs?, zero] at found
  simp [← found, wholeBound] at bound

/-- A large whole number is written like the integer that its shortest decimal is. -/
theorem IsLargeWhole.text_eq (large : f.IsLargeWhole) (finite : f.isFinite = true) :
    f.text = Decimal.ofInt (f.signed f.shortest.whole) := by
  -- Its magnitude is the decimal, without the mark for small whole numbers.
  obtain ⟨nonneg, positive⟩ := large.shortest
  have magnitude : f.magnitudeText = Decimal.ofNat f.shortest.whole := by
    obtain ⟨whole, found, bound⟩ := large
    simp only [magnitudeText, found, Nat.not_lt.mpr bound, ↓reduceIte]
    exact ShortDecimal.positional_of_nonneg nonneg positive
  rw [text_of_isFinite finite, magnitude, signed]
  split
  · -- A minus sign stands before what is not zero.
    have above : 0 < f.shortest.whole := Nat.mul_pos positive (Nat.pow_pos (by decide))
    obtain ⟨less, same⟩ := Nat.exists_eq_succ_of_ne_zero above.ne'
    rw [same]
    rfl
  · rfl

end Binary64

namespace Value

/-- A finite floating-point number is written like an integer exactly if it is whole, is too large
for the mark `.0`, and the integer is its shortest decimal. -/
theorem text_float_eq_text_int_iff {classes : Hierarchy} {f : Binary64}
    (finite : f.isFinite = true) (number : Int) :
    (Value.float f).text classes = (Value.int number).text classes ↔
      f.IsLargeWhole ∧ number = f.signed f.shortest.whole := by
  -- All finite numbers but these have a point in their text, and integers have none.
  rw [text, text]
  by_cases large : f.IsLargeWhole
  · rw [large.text_eq finite]
    constructor
    · -- Integers are told by their texts.
      intro same
      exact ⟨large, (Decimal.ofInt_inj same).symm⟩
    · rintro ⟨_, rfl⟩
      rfl
  · -- The point tells all other numbers from integers.
    have point : '.' ∈ f.text.toList := by
      have magnitude := Binary64.point_mem_magnitudeText large
      rw [Binary64.text_of_isFinite finite]
      split
      · simp [magnitude]
      · exact magnitude
    constructor
    · intro same
      rw [same] at point
      exact absurd point (Decimal.not_mem_ofInt number)
    · rintro ⟨large', _⟩
      exact absurd large' large

/-- A negative power of two that is written like an integer other than itself. -/
theorem text_float_eq_text_int_rounded :
    let f : Binary64 := ⟨0xC3B0000000000000⟩
    let number : Int := -1152921504606847000
    f.isFinite = true ∧ f.natAbs? = some 1152921504606846976 ∧ f.IsLargeWhole ∧
      number = f.signed f.shortest.whole ∧
      (Value.float f).text .initial = (Value.int number).text .initial := by
  -- The shortest decimal rounds to the number, and is another whole number.
  intro f number
  have whole : f.natAbs? = some 1152921504606846976 := by decide +kernel
  have large : f.IsLargeWhole := ⟨_, whole, by decide⟩
  have rounded : number = f.signed f.shortest.whole := by decide +kernel
  exact ⟨by decide, whole, large, rounded,
    (text_float_eq_text_int_iff (by decide) number).mpr ⟨large, rounded⟩⟩

/-- Ten to the power of sixteen is written alike as a floating-point number and as an integer. -/
theorem exists_text_float_eq_text_int :
    ¬∀ (classes : Hierarchy) (f : Binary64) (number : Int), f.isFinite = true →
      -(2 ^ 63) ≤ number → number < 2 ^ 63 →
        (Value.float f).text classes ≠ (Value.int number).text classes := by
  -- This power of ten is whole and just too large for the mark.
  intro apart
  exact apart .initial ⟨0x4341C37937E08000⟩ 10000000000000000 (by decide) (by decide) (by decide)
    (by decide +kernel)

end Value

end Misfit
