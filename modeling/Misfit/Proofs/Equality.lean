import Misfit.Proofs.Hint.Equality

/-! Values and hints that are not equal to themselves: those that hold a number that is none. -/

namespace Misfit

/-- Only a value that is no number differs from itself. -/
theorem Binary64.beq_self_iff {f : Binary64} : (f == f) = true ↔ ¬f.isNaN = true := by
  -- Of the conditions for equality, the others hold of every number and itself.
  simp [beq_iff]

namespace Value

/-- Whether a value is a floating-point number that is no number. -/
def IsNaN : Value → Prop
  | .float number => number.isNaN = true
  | _ => False

/-- A value that is no number occurs in a value: among items, keys, stored values or contents of
objects, at any depth. -/
def HoldsNaN (value : Value) : Prop := Somewhere parts IsNaN value

/-- A value is not of one form with itself exactly if it is no number. -/
theorem not_sameForm_self_iff {value : Value} : ¬SameForm value value ↔ value.IsNaN := by
  cases value with
  | float number =>
    -- The only form that compares more than what it is made of.
    constructor
    · intro apart
      by_contra number
      exact apart (.float (Binary64.beq_self_iff.mpr number))
    · intro nan form
      cases form with
      | float same => exact Binary64.beq_self_iff.mp same nan
  | _ =>
    simp only [IsNaN, iff_false, not_not]
    constructor

/-- A value differs from itself exactly if a value that is no number occurs in it. -/
theorem not_equal_self_iff {value : Value} : ¬equal value value = true ↔ value.HoldsNaN := by
  -- Equality goes part by part, so it fails at some value inside, by the form of that value.
  rw [equal_partByPart.not_self_iff]
  simp only [not_sameForm_self_iff]
  rfl

end Value

namespace Hint

/-- Whether a hint names a value in which one that is no number occurs. -/
def NamesNaN : Hint → Prop
  | .literal values => ∃ value ∈ values, value.HoldsNaN
  | _ => False

/-- A value that is no number occurs in a hint: in a literal, at any depth. -/
def HoldsNaN (hint : Hint) : Prop := Somewhere parts NamesNaN hint

/-- A hint is not of one form with itself exactly if it names a value that differs from itself. -/
theorem not_sameForm_self_iff {hint : Hint} : ¬SameForm hint hint ↔ hint.NamesNaN := by
  -- Literals name values, and their values are all that a form compares by an equality.
  cases hint with
  | literal values =>
    constructor
    · -- If no named value holds one, all of them are equal to themselves, one by one.
      intro apart
      by_contra none
      apply apart
      refine .literal (List.forall₂_same.mpr ?_)
      intro value member
      by_contra differs
      exact none ⟨value, member, Value.not_equal_self_iff.mp differs⟩
    · rintro ⟨value, member, holds⟩ form
      cases form with
      | literal same =>
        exact Value.not_equal_self_iff.mpr holds (List.forall₂_same.mp same value member)
  | _ =>
    simp only [NamesNaN, iff_false, not_not]
    constructor

/-- A hint differs from itself exactly if a value that is no number occurs in it. -/
theorem not_equal_self_iff {hint : Hint} : ¬equal hint hint = true ↔ hint.HoldsNaN := by
  -- As for values, it fails at some hint inside, by the form of that hint.
  rw [equal_partByPart.not_self_iff]
  simp only [not_sameForm_self_iff]
  rfl

end Hint

/-- Equality on a type is symmetric and transitive, and each thing equals itself except those with a
flaw. -/
structure EqualityExcept {α : Type} [BEq α] (flawed : α → Prop) : Prop where
  symm : ∀ a b : α, (a == b) = (b == a)
  trans : ∀ a b c : α, (a == b) = true → (b == c) = true → (a == c) = true
  self_iff : ∀ a : α, (a == a) = true ↔ ¬flawed a

/-- Equality of values and of hints is symmetric, transitive and reflexive but for numbers that are
none, and a value is literally another exactly if the two are equal. -/
theorem equality_except_on_nan :
    EqualityExcept Value.HoldsNaN ∧ EqualityExcept Hint.HoldsNaN ∧
      ∀ value named : Value, value.isLiterally named = (value == named) := by
  -- Both equalities have these laws for the same reason: they go part by part.
  refine ⟨?_, ?_, Value.isLiterally_eq⟩
  · exact {
      symm := fun a b => Bool.eq_iff_iff.mpr ⟨Value.equal_symm, Value.equal_symm⟩
      trans := fun a b c => Value.equal_trans
      self_iff := fun a => (not_iff_comm.mp Value.not_equal_self_iff).symm }
  · exact {
      symm := fun a b => Bool.eq_iff_iff.mpr ⟨Hint.equal_symm, Hint.equal_symm⟩
      trans := fun a b c => Hint.equal_trans
      self_iff := fun a => (not_iff_comm.mp Hint.not_equal_self_iff).symm }

/-- A key that is no number keeps the hint around it from being equal to itself, and zeros of either
sign are equal. -/
example :
    let nan : Hint := .union [.any, .literal [.dict [(.float ⟨0x7ff8000000000000⟩, .none)]]]
    (nan == nan) = false ∧
      (Value.float ⟨0⟩).isLiterally (.float ⟨0x8000000000000000⟩) = true := by
  decide +kernel

end Misfit
