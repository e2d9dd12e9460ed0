import Misfit.Hierarchy.Basic

/-! Hierarchies that grow from the initial one by definitions over defined bases. -/

namespace Misfit

namespace Hierarchy

/-- A hierarchy reached from the initial one by any run of definitions, each over bases that are
defined before it. -/
inductive WellBuilt : Hierarchy → Prop where
  | initial : WellBuilt Hierarchy.initial
  | define {classes : Hierarchy} (name : String) {bases : List ClassRef} (built : WellBuilt classes)
      (known : ∀ base ∈ bases, classes.contains base = true) :
      WellBuilt (classes.define name bases).2

/-- A definition adds exactly one class. -/
@[simp] theorem size_define (classes : Hierarchy) (name : String) (bases : List ClassRef) :
    (classes.define name bases).2.size = classes.size + 1 := by
  -- The record of the new class goes to the end of the records.
  simp [define, push, size]

/-- A definition puts the new record behind all others. -/
theorem get?_define (classes : Hierarchy) (name : String) (bases : List ClassRef)
    (ref : ClassRef) :
    (classes.define name bases).2.get? ref =
      if ref.index = classes.size then
        some ⟨name, if bases.isEmpty then [.object] else bases⟩
      else classes.get? ref := by
  -- The place behind all records is the only one that a further record changes.
  rw [define, push, get?, get?, size, Array.getElem?_push]

/-- A definition gives bases to the new class and leaves those of all others. -/
theorem basesOf_define (classes : Hierarchy) (name : String) (bases : List ClassRef)
    (ref : ClassRef) :
    (classes.define name bases).2.basesOf ref =
      if ref.index = classes.size then if bases.isEmpty then [.object] else bases
      else classes.basesOf ref := by
  -- The record of the new class is that of the definition, and all others are as before.
  rw [basesOf, basesOf, get?_define]
  by_cases new : ref.index = classes.size
  · simp only [new, ↓reduceIte]
  · simp only [new, ↓reduceIte]

/-- No hierarchy is smaller than the initial one. -/
theorem WellBuilt.predefinedCount_le_size {classes : Hierarchy} (built : classes.WellBuilt) :
    ClassRef.predefinedCount ≤ classes.size := by
  -- The initial hierarchy has the predefined classes, and every definition adds one more.
  induction built with
  | initial => decide
  | define name _ _ ih =>
    rw [size_define]
    omega

/-- The predefined classes are never lost. -/
theorem WellBuilt.contains_predefined {classes : Hierarchy} (built : classes.WellBuilt)
    {ref : ClassRef} (predefined : ref.isPredefined = true) : classes.contains ref = true := by
  -- Their places are below those of all classes defined later.
  have enough := built.predefinedCount_le_size
  simp only [ClassRef.isPredefined, decide_eq_true_eq] at predefined
  simp only [contains, decide_eq_true_eq]
  omega

end Hierarchy

end Misfit
