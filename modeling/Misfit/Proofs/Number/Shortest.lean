import Misfit.Number.Shortest
import Mathlib.Tactic.Ring
import Mathlib.Algebra.Order.Ring.Nat

/-! The search for the shortest decimal always succeeds. It finds a whole number exactly for the
numbers that are whole themselves. -/

namespace Misfit

namespace RoundingRange

variable {range : RoundingRange} {exponent : Int} {found : ShortDecimal} {f : Binary64}

/-- What is found for a power of ten is a multiple of it within the range. -/
theorem holds_of_nearest? (nearest : range.nearest? exponent = some found) :
    found.exponent = exponent ∧ range.holds found.coefficient exponent = true := by
  -- Either neighbour of the middle is only returned where it was seen to lie in the range.
  unfold nearest? at nearest
  dsimp only at nearest
  split at nearest
  · next below above =>
    -- If both neighbours lie in the range, the nearer of them is returned.
    split at nearest
    · cases nearest
      exact ⟨rfl, below⟩
    · cases nearest
      exact ⟨rfl, above⟩
  · next below _ =>
    cases nearest
    exact ⟨rfl, below⟩
  · next above =>
    cases nearest
    exact ⟨rfl, above⟩
  · cases nearest

/-- A multiple of a power of ten in a range lies between its ends. -/
theorem between_of_holds {coefficient : Nat} (holds : range.holds coefficient exponent = true) :
    range.low * range.binaryFactor exponent ≤ coefficient * range.decimalFactor exponent ∧
      coefficient * range.decimalFactor exponent ≤ range.high * range.binaryFactor exponent := by
  -- A range that is open at its ends only asks for more.
  unfold RoundingRange.holds at holds
  dsimp only at holds
  split at holds
  · simpa using holds
  · simp only [Bool.and_eq_true, decide_eq_true_eq] at holds
    exact ⟨holds.1.le, holds.2.le⟩

/-- The factor of counts of quarters is not zero. -/
theorem binaryFactor_pos (range : RoundingRange) (exponent : Int) :
    0 < range.binaryFactor exponent :=
  -- It is a product of a power of two and one of ten.
  Nat.mul_pos (Nat.pow_pos (by decide)) (Nat.pow_pos (by decide))

/-- A power of ten of which the number itself is a multiple has a multiple in the range. -/
theorem isSome_nearest?_of_dvd
    (divisible : (of f).decimalFactor exponent ∣ (of f).middle * (of f).binaryFactor exponent) :
    ((of f).nearest? exponent).isSome = true := by
  -- The middle lies in its range, so the search finds it if not a neighbour of it.
  have positive := (of f).binaryFactor_pos exponent
  -- The multiple next to the middle, from below, is the middle.
  have middle := Nat.div_mul_cancel divisible
  have below : (of f).low * (of f).binaryFactor exponent ≤
      (of f).middle * (of f).binaryFactor exponent :=
    Nat.mul_le_mul_right _ (by simp only [of]; omega)
  have above : (of f).middle * (of f).binaryFactor exponent ≤
      (of f).high * (of f).binaryFactor exponent :=
    Nat.mul_le_mul_right _ (by simp only [of]; omega)
  have held : (of f).holds
      ((of f).middle * (of f).binaryFactor exponent / (of f).decimalFactor exponent) exponent =
        true := by
    unfold RoundingRange.holds
    dsimp only
    rw [middle]
    split
    · simp [below, above]
    · next isOpen =>
      -- An open range belongs to an odd mantissa, so its ends are apart from the middle.
      have odd : f.mantissa % 2 ≠ 0 := by simpa [of] using isOpen
      simp only [Bool.and_eq_true, decide_eq_true_eq]
      constructor
      · apply Nat.mul_lt_mul_of_pos_right _ positive
        simp only [of]
        split <;> omega
      · apply Nat.mul_lt_mul_of_pos_right _ positive
        simp only [of]
        omega
  -- With the neighbour from below in the range there is always something to return.
  unfold nearest?
  dsimp only
  rw [held]
  split
  · split <;> rfl
  · rfl
  · next absurd _ => cases absurd
  · next absurd _ => cases absurd

/-- A multiple of a power of ten that is whole lies in the range of whole numbers only. -/
theorem dvd_mantissa_of_holds {coefficient zeros : Nat}
    (holds : (of f).holds coefficient zeros = true) : 2 ^ (-f.scale).toNat ∣ f.mantissa := by
  -- A coarse last place is not halved, so there is nothing behind the point.
  by_cases coarse : 0 ≤ f.scale
  · have unscaled : (-f.scale).toNat = 0 := by omega
    simp [unscaled]
  · obtain ⟨low, high⟩ := between_of_holds holds
    -- One unit is four quarters of the last place, for each of its fractions.
    have quarters : (-(f.scale - 2)).toNat = (-f.scale).toNat + 2 := by omega
    have noTwos : (f.scale - 2).toNat = 0 := by omega
    have point : coefficient * (of f).decimalFactor zeros =
        4 * (coefficient * 10 ^ zeros * 2 ^ (-f.scale).toNat) := by
      simp only [decimalFactor, of, quarters, Int.toNat_natCast, Nat.pow_eq, pow_add]
      ring
    have unit : (of f).binaryFactor zeros = 1 := by
      have noTens : (-(zeros : Int)).toNat = 0 := by omega
      simp [binaryFactor, of, noTwos, noTens]
    rw [point, unit, Nat.mul_one] at low high
    -- The only multiple of four this close to the middle is the middle itself.
    have middle : f.mantissa = coefficient * 10 ^ zeros * 2 ^ (-f.scale).toNat := by
      simp only [of] at low high
      split at low <;> omega
    exact ⟨_, middle.trans (Nat.mul_comm _ _)⟩

/-- A number is found at a power of ten of which it is a multiple. -/
theorem isSome_nearest?_of_exact {places : Nat}
    (divisible : 2 ^ (-f.scale).toNat ∣ f.mantissa * 10 ^ places) :
    ((of f).nearest? (-places)).isSome = true := by
  -- In counts of quarters there are no tens to divide by, only the twos of the last place.
  apply isSome_nearest?_of_dvd
  have unit : (of f).decimalFactor (-places) = 2 ^ (-(f.scale - 2)).toNat := by
    have noTens : (-(places : Int)).toNat = 0 := by omega
    simp [decimalFactor, of, noTens]
  have scaled : (of f).middle * (of f).binaryFactor (-places) =
      4 * (f.mantissa * 10 ^ places) * 2 ^ (f.scale - 2).toNat := by
    simp only [binaryFactor, of, neg_neg, Int.toNat_natCast, Nat.pow_eq]
    ring
  -- Four quarters make up for the two twos that a quarter of the last place has more.
  have twos : (-(f.scale - 2)).toNat ≤ 2 + (-f.scale).toNat := by omega
  rw [unit, scaled]
  apply Dvd.dvd.mul_right
  calc 2 ^ (-(f.scale - 2)).toNat
    _ ∣ 2 ^ (2 + (-f.scale).toNat) := pow_dvd_pow 2 twos
    _ = 4 * 2 ^ (-f.scale).toNat := pow_add 2 2 _
    _ ∣ 4 * (f.mantissa * 10 ^ places) := Nat.mul_dvd_mul_left 4 divisible

/-- All powers of ten from one down to that of the finest number are tried. -/
theorem mem_exponents {places : Nat} (few : places ≤ 1074) : -(places : Int) ∈ range.exponents := by
  -- The list goes down from the length of the upper end, and far enough below zero.
  unfold exponents
  dsimp only
  generalize (Decimal.digits _).length = coarsest
  exact List.mem_map.mpr ⟨coarsest + places, List.mem_range.mpr (by omega), by omega⟩

/-- Coarser powers of ten are tried first. -/
theorem pairwise_exponents (range : RoundingRange) : range.exponents.Pairwise (· > ·) := by
  -- They are counted down from the coarsest one.
  unfold exponents
  dsimp only
  rw [List.pairwise_map]
  exact List.pairwise_lt_range.imp fun earlier => by omega

end RoundingRange

namespace Binary64

open RoundingRange

/-- A finite magnitude is whole exactly if nothing of its mantissa is behind the point. -/
theorem isSome_natAbs?_iff {f : Binary64} :
    f.natAbs?.isSome = true ↔ 2 ^ (-f.scale).toNat ∣ f.mantissa := by
  -- What is behind the point is the remainder that the test asks about.
  unfold natAbs?
  dsimp only
  split
  · next whole => simpa [Nat.dvd_iff_mod_eq_zero] using whole
  · next broken => simpa [Nat.dvd_iff_mod_eq_zero] using broken

/-- The search for the shortest decimal of a number succeeds, at the first power of ten that has a
multiple in the range. -/
theorem shortest_eq (f : Binary64) : ∃ before exponent after,
    (of f).exponents = before ++ exponent :: after ∧
      (of f).nearest? exponent = some f.shortest ∧
      ∀ coarser ∈ before, (of f).nearest? coarser = none := by
  -- Ten to this power has as many twos as a last place can be halved.
  have halvings : (-f.scale).toNat ≤ 1074 := by
    unfold scale
    omega
  have divisible : 2 ^ (-f.scale).toNat ∣ f.mantissa * 10 ^ 1074 := by
    apply Dvd.dvd.mul_left
    exact (pow_dvd_pow 2 halvings).trans (pow_dvd_pow_of_dvd (by decide) 1074)
  -- So the finest power of ten that is tried has a multiple in the range.
  have succeeds : ((of f).exponents.findSome? (of f).nearest?).isSome = true :=
    List.findSome?_isSome_iff.mpr
      ⟨_, mem_exponents (le_refl 1074), isSome_nearest?_of_exact divisible⟩
  obtain ⟨found, searched⟩ := Option.isSome_iff_exists.mp succeeds
  have same : f.shortest = found := by
    unfold shortest
    dsimp only
    rw [searched]
    rfl
  rw [same]
  exact List.findSome?_eq_some_iff.mp searched

/-- The shortest decimal of a number rounds to it. -/
theorem holds_shortest (f : Binary64) :
    (of f).holds f.shortest.coefficient f.shortest.exponent = true := by
  -- It is what the search has found.
  obtain ⟨_, exponent, _, _, nearest, _⟩ := f.shortest_eq
  obtain ⟨same, holds⟩ := holds_of_nearest? nearest
  rwa [same]

/-- The shortest decimal has no places behind the point exactly for whole numbers. -/
theorem shortest_exponent_nonneg_iff {f : Binary64} :
    0 ≤ f.shortest.exponent ↔ f.natAbs?.isSome = true := by
  rw [isSome_natAbs?_iff]
  constructor
  · -- A decimal without such places is whole, and it lies in the range of the number.
    intro nonneg
    have holds := f.holds_shortest
    obtain ⟨zeros, same⟩ := Int.eq_ofNat_of_zero_le nonneg
    rw [same] at holds
    exact dvd_mantissa_of_holds holds
  · intro whole
    obtain ⟨before, exponent, after, listed, nearest, fails⟩ := f.shortest_eq
    rw [(holds_of_nearest? nearest).1]
    -- A whole number is found at one, if not before, so the search goes no further than that.
    have one : ((of f).nearest? (-(0 : Nat))).isSome = true :=
      isSome_nearest?_of_exact (by simpa using whole)
    have tried : (-(0 : Nat) : Int) ∈ (of f).exponents := mem_exponents (Nat.zero_le _)
    have falling := (of f).pairwise_exponents
    rw [listed] at tried falling
    -- The exponent found is the one for whole numbers, or comes before it and is greater.
    rcases List.mem_append.mp tried with earlier | here
    · rw [fails _ earlier] at one
      cases one
    · rcases List.mem_cons.mp here with same | later
      · rw [← same]
        rfl
      · have finer := (List.pairwise_cons.mp (List.pairwise_append.mp falling).2.1).1 _ later
        exact finer.le

/-- The shortest decimal of a number above zero is above zero. -/
theorem shortest_coefficient_pos {f : Binary64} (positive : 0 < f.mantissa) :
    0 < f.shortest.coefficient := by
  -- The lower end of the range is above zero, even where it is nearer than the upper one.
  have low := (between_of_holds f.holds_shortest).1
  have lower : 0 < (of f).low := by
    simp only [of]
    split <;> omega
  have bound := Nat.mul_pos lower ((of f).binaryFactor_pos f.shortest.exponent)
  by_contra none
  have zero : f.shortest.coefficient = 0 := by omega
  rw [zero, Nat.zero_mul] at low
  omega

end Binary64

end Misfit
