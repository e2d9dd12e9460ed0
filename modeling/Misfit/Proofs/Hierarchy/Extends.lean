import Misfit.Proofs.Hierarchy.Descends
import Misfit.Proofs.Hierarchy.WellBuilt

/-! Further definitions leave the classes before them as they are: names, bases and descent. -/

namespace Misfit

namespace Hierarchy

/-- One hierarchy extends another if every class defined in the other has the same record in it. -/
def Extends (later classes : Hierarchy) : Prop :=
  ∀ ref, classes.contains ref = true → later.get? ref = classes.get? ref

/-- A class is defined exactly if there is a record of it. -/
theorem contains_iff_isSome {classes : Hierarchy} {ref : ClassRef} :
    classes.contains ref = true ↔ (classes.get? ref).isSome = true := by
  -- Both ask whether the place of the class is one of the records.
  rw [contains, get?, isSome_getElem?]
  exact decide_eq_true_iff

/-- A hierarchy extends itself. -/
theorem Extends.refl (classes : Hierarchy) : classes.Extends classes :=
  -- There is nothing new that could have changed a record.
  fun _ _ => rfl

/-- A definition extends the hierarchy that it is made in. -/
theorem extends_define (classes : Hierarchy) (name : String) (bases : List ClassRef) :
    (classes.define name bases).2.Extends classes := by
  intro ref defined
  -- The new class has a place that no class had before.
  have before : ref.index < classes.size := by simpa [contains] using defined
  rw [get?_define, if_neg (by omega)]

namespace Extends

variable {later classes : Hierarchy}

/-- What is defined stays defined. -/
theorem contains (extends_ : later.Extends classes) {ref : ClassRef}
    (defined : classes.contains ref = true) : later.contains ref = true := by
  -- To be defined is to have a record, and records are kept.
  rw [contains_iff_isSome, extends_ ref defined, ← contains_iff_isSome]
  exact defined

/-- What extends an extension of a hierarchy extends the hierarchy itself. -/
theorem trans {last : Hierarchy} (second : last.Extends later) (first : later.Extends classes) :
    last.Extends classes := by
  -- A class of the first hierarchy is one of the second, so its record is kept twice.
  intro ref defined
  rw [second ref (first.contains defined), first ref defined]

/-- A defined class keeps its name. -/
theorem nameOf (extends_ : later.Extends classes) {ref : ClassRef}
    (defined : classes.contains ref = true) : later.nameOf ref = classes.nameOf ref := by
  -- The name is read off the record.
  rw [Hierarchy.nameOf, Hierarchy.nameOf, extends_ ref defined]

/-- A defined class keeps its direct bases. -/
theorem basesOf (extends_ : later.Extends classes) {ref : ClassRef}
    (defined : classes.contains ref = true) : later.basesOf ref = classes.basesOf ref := by
  -- The bases are read off the record.
  rw [Hierarchy.basesOf, Hierarchy.basesOf, extends_ ref defined]

end Extends

/-- What is known of the predefined classes holds in every hierarchy that is built by
definitions. -/
theorem WellBuilt.extends_initial {classes : Hierarchy} (built : classes.WellBuilt) :
    classes.Extends Hierarchy.initial := by
  -- Each definition in turn keeps the records before it.
  induction built with
  | initial => exact .refl _
  | define name _ _ ih => exact (extends_define _ name _).trans ih

/-- The bases of a class are defined before it, so they stay within the hierarchy. -/
theorem WellBuilt.contains_base {classes : Hierarchy} (built : classes.WellBuilt)
    {child base : ClassRef} (direct : base ∈ classes.basesOf child) :
    classes.contains base = true := by
  -- By induction on the definitions: the newest class lists classes before it, or only the root.
  induction built generalizing child base with
  | initial =>
    -- The predefined classes are few enough to look at all of them.
    have inside : child.index < ClassRef.predefinedCount :=
      of_decide_eq_true (contains_of_mem_basesOf direct)
    have known : ∀ index < ClassRef.predefinedCount, ∀ base ∈ Hierarchy.initial.basesOf ⟨index⟩,
        Hierarchy.initial.contains base = true := by decide
    exact known child.index inside base direct
  | @define classes name bases built known ih =>
    apply (extends_define classes name bases).contains
    rw [basesOf_define] at direct
    split at direct
    · -- Without a base of its own the new class has the root for one.
      split at direct
      · rw [List.mem_singleton.mp direct]
        exact built.contains_predefined rfl
      · exact known base direct
    · exact ih direct

/-- What a defined class descends from is not changed by further definitions. -/
theorem Extends.descends_iff {later classes : Hierarchy} (extends_ : later.Extends classes)
    (built : classes.WellBuilt) {child : ClassRef} (defined : classes.contains child = true)
    (parent : ClassRef) : later.Descends child parent ↔ classes.Descends child parent := by
  -- A descent goes from a defined class to its bases, and these are defined too.
  constructor
  · intro descends
    induction descends with
    | refl => exact .refl
    | root _ => exact .root defined
    | base direct _ ih =>
      -- The bases are the same ones, so the descent goes on inside the earlier hierarchy.
      rw [extends_.basesOf defined] at direct
      exact .base direct (ih (built.contains_base direct))
  · intro descends
    induction descends with
    | refl => exact .refl
    | root _ => exact .root (extends_.contains defined)
    | base direct _ ih =>
      have above := ih (built.contains_base direct)
      rw [← extends_.basesOf defined] at direct
      exact .base direct above

/-- The test for descent finds the same for a defined class after further definitions. -/
theorem Extends.derives_eq {later classes : Hierarchy} (extends_ : later.Extends classes)
    (built : classes.WellBuilt) {child : ClassRef} (defined : classes.contains child = true)
    (parent : ClassRef) : later.derives child parent = classes.derives child parent := by
  -- The test decides descent, and further definitions leave that as it is.
  apply Bool.eq_iff_iff.mpr
  rw [derives_iff_descends, derives_iff_descends]
  exact extends_.descends_iff built defined parent

end Hierarchy

end Misfit
