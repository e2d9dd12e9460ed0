import Mathlib.Logic.Relation
import Misfit.Proofs.Hierarchy.Descends
import Misfit.Proofs.Hierarchy.WellBuilt

/-! Descent orders the classes of a hierarchy that grew by definitions. -/

namespace Misfit

namespace ClassRef

/-- The length of the longest climb from each predefined class to the root. Some predefined classes
stand before their bases, so their places alone do not show which of them can be above others. -/
def predefinedRanks : List Nat := [0, 1, 2, 1, 1, 2, 2, 3, 2, 3, 3, 2, 1, 1, 2, 1, 2, 1, 2]

/-- A number that gets smaller on the way to the root. Classes defined later rank by their place. -/
def rank (ref : ClassRef) : Nat := predefinedRanks.getD ref.index ref.index

/-- A class that is not predefined ranks by its place. -/
theorem rank_eq_index {ref : ClassRef} (later : predefinedCount ≤ ref.index) :
    ref.rank = ref.index := by
  -- The table of ranks ends with the predefined classes.
  have beyond : predefinedRanks[ref.index]? = none := List.getElem?_eq_none later
  simp [rank, beyond]

/-- A class ranks below every place that comes after it and after the predefined classes. -/
theorem rank_lt_of_index_lt {ref : ClassRef} {place : Nat} (later : predefinedCount ≤ place)
    (before : ref.index < place) : ref.rank < place := by
  -- The rank of a class is its index, unless it is predefined.
  rcases Nat.lt_or_ge ref.index predefinedCount with predefined | other
  · -- No predefined class ranks higher than there are predefined classes.
    have bounded : ∀ index < predefinedCount, rank ⟨index⟩ < predefinedCount := by decide
    exact Nat.lt_of_lt_of_le (bounded ref.index predefined) later
  · -- All other classes are ranked by the order in which they were defined.
    rw [rank_eq_index other]
    exact before

end ClassRef

namespace Hierarchy

/-- A base ranks below the class that names it. -/
theorem WellBuilt.rank_lt_of_mem_basesOf {classes : Hierarchy} (built : classes.WellBuilt)
    {child base : ClassRef} (direct : base ∈ classes.basesOf child) : base.rank < child.rank := by
  -- The ranks fit the initial hierarchy, and a new class ranks above all classes before it.
  induction built generalizing child base with
  | initial =>
    -- The predefined classes are few enough to compare all of their ranks.
    have inside : child.index < ClassRef.predefinedCount :=
      of_decide_eq_true (contains_of_mem_basesOf direct)
    have fits : ∀ index < ClassRef.predefinedCount, ∀ base ∈ Hierarchy.initial.basesOf ⟨index⟩,
        ClassRef.rank base < ClassRef.rank ⟨index⟩ := by decide
    exact fits child.index inside base direct
  | @define classes name bases built known ih =>
    have enough := built.predefinedCount_le_size
    rw [basesOf_define] at direct
    split at direct
    · next new =>
      have ranked : child.rank = child.index := ClassRef.rank_eq_index (by omega)
      rw [ranked, new]
      apply ClassRef.rank_lt_of_index_lt enough
      split at direct
      · -- Without a base of its own the class is directly below the root, the first of all.
        rw [List.mem_singleton.mp direct]
        exact Nat.lt_of_lt_of_le (by decide) enough
      · simpa [contains] using known base direct
    · exact ih direct

/-- One class is above another if a climb by one base or more leads from the other to it. -/
def Above (classes : Hierarchy) : ClassRef → ClassRef → Prop :=
  Relation.TransGen fun child base => base ∈ classes.basesOf child

/-- A climb ends below its start in rank. -/
theorem WellBuilt.rank_lt_of_above {classes : Hierarchy} (built : classes.WellBuilt)
    {child parent : ClassRef} (above : classes.Above child parent) : parent.rank < child.rank := by
  -- Each base on the climb ranks below the class that names it.
  induction above with
  | single direct => exact built.rank_lt_of_mem_basesOf direct
  | tail _ direct ih => exact Nat.lt_trans (built.rank_lt_of_mem_basesOf direct) ih

/-- Nothing is above the root. -/
theorem WellBuilt.not_above_object {classes : Hierarchy} (built : classes.WellBuilt)
    {parent : ClassRef} : ¬classes.Above .object parent := by
  -- The root has the least rank of all.
  intro above
  exact Nat.not_lt_zero _ (built.rank_lt_of_above above)

/-- Only a defined class is the start of a climb. -/
theorem contains_of_above {classes : Hierarchy} {child parent : ClassRef}
    (above : classes.Above child parent) : classes.contains child = true := by
  -- The first step of a climb leads to a base of its start.
  obtain ⟨base, direct, _⟩ := Relation.TransGen.head'_iff.mp above
  exact contains_of_mem_basesOf direct

/-- A class descends from itself, from the root if it is defined, and from the classes above it. -/
theorem descends_iff_above {classes : Hierarchy} {child parent : ClassRef} :
    classes.Descends child parent ↔
      child = parent ∨ (parent = .object ∧ classes.contains child = true) ∨
        classes.Above child parent := by
  -- A descent is a climb, but for the class itself and for the root, which need no base.
  constructor
  · intro descends
    induction descends with
    | refl => exact .inl rfl
    | root defined => exact .inr (.inl ⟨rfl, defined⟩)
    | base direct _ ih =>
      -- One more base leads on from where the descent from that base starts.
      rcases ih with rfl | ⟨root, _⟩ | above
      · exact .inr (.inr (.single direct))
      · exact .inr (.inl ⟨root, contains_of_mem_basesOf direct⟩)
      · exact .inr (.inr (.head direct above))
  · rintro (rfl | ⟨rfl, defined⟩ | above)
    · exact .refl
    · exact .root defined
    · induction above using Relation.TransGen.head_induction_on with
      | single direct => exact .base direct .refl
      | head direct _ ih => exact .base direct ih

/-- Only the root is what the root descends from. -/
theorem WellBuilt.eq_object_of_descends {classes : Hierarchy} (built : classes.WellBuilt)
    {parent : ClassRef} (descends : classes.Descends .object parent) : parent = .object := by
  -- What the root descends from is itself, the root, or above it, and nothing is.
  rcases descends_iff_above.mp descends with same | ⟨root, _⟩ | above
  · exact same.symm
  · exact root
  · exact absurd above built.not_above_object

/-- Whatever a class descends from passes its own descent on. -/
theorem WellBuilt.descends_trans {classes : Hierarchy} (built : classes.WellBuilt)
    {child middle parent : ClassRef} (lower : classes.Descends child middle)
    (upper : classes.Descends middle parent) : classes.Descends child parent := by
  -- The first step stays at the child, leads to the root, or leads up.
  rcases descends_iff_above.mp lower with rfl | ⟨rfl, defined⟩ | above
  · exact upper
  · -- There is nothing above the root to descend from.
    rw [built.eq_object_of_descends upper]
    exact .root defined
  · rcases descends_iff_above.mp upper with rfl | ⟨rfl, _⟩ | further
    · exact lower
    · exact .root (contains_of_above above)
    · exact descends_iff_above.mpr (.inr (.inr (above.trans further)))

/-- Two classes that descend from each other are the same. -/
theorem WellBuilt.descends_antisymm {classes : Hierarchy} (built : classes.WellBuilt)
    {child parent : ClassRef} (lower : classes.Descends child parent)
    (upper : classes.Descends parent child) : child = parent := by
  -- Were both descents upwards, they would make a round trip.
  rcases descends_iff_above.mp lower with same | ⟨rfl, _⟩ | above
  · exact same
  · exact built.eq_object_of_descends upper
  · rcases descends_iff_above.mp upper with same | ⟨rfl, _⟩ | back
    · exact same.symm
    · exact absurd above built.not_above_object
    · -- A round trip would end below its own start in rank.
      exact absurd (built.rank_lt_of_above above) (Nat.lt_asymm (built.rank_lt_of_above back))

/-- In a hierarchy built by definitions, the test for descent finds exactly the class itself, the
root for every defined class, and the classes above; and descent is a partial order whose greatest
element is the root. -/
theorem WellBuilt.derives_partial_order {classes : Hierarchy} (built : classes.WellBuilt) :
    (∀ child parent, classes.derives child parent = true ↔
      child = parent ∨ (parent = .object ∧ classes.contains child = true) ∨
        classes.Above child parent) ∧
      (∀ ref, classes.derives ref ref = true) ∧
      (∀ child middle parent, classes.derives child middle = true →
        classes.derives middle parent = true → classes.derives child parent = true) ∧
      (∀ child parent, classes.derives child parent = true →
        classes.derives parent child = true → child = parent) ∧
      ∀ ref, classes.contains ref = true → classes.derives ref .object = true := by
  -- Each law is one of descent, which the test decides.
  simp only [derives_iff_descends]
  refine ⟨fun _ _ => descends_iff_above, fun _ => .refl, ?_, ?_, fun _ defined => .root defined⟩
  · intro child middle parent lower upper
    exact built.descends_trans lower upper
  · intro child parent lower upper
    exact built.descends_antisymm lower upper

/-- The top of a diamond is above its foot, and the order tells its two sides apart. -/
theorem derives_partial_order_diamond :
    let base := Hierarchy.initial.define "Base" []
    let left := base.2.define "Left" [base.1, .list]
    let right := left.2.define "Right" [base.1]
    let foot := right.2.define "Foot" [left.1, right.1]
    let classes := foot.2
    classes.WellBuilt ∧ classes.Above foot.1 base.1 ∧ classes.Above foot.1 .sequence ∧
      ¬classes.Above left.1 right.1 ∧ classes.derives foot.1 .object = true ∧
      classes.derives base.1 foot.1 = false := by
  intro base left right foot classes
  have built : classes.WellBuilt :=
    .define _ (.define _ (.define _ (.define _ .initial (by decide)) (by decide)) (by decide))
      (by decide)
  obtain ⟨decides, _, _, antisymm, root⟩ := built.derives_partial_order
  -- The walk itself is run here, and what it finds is read as a climb.
  have above : ∀ child parent, child ≠ parent → parent ≠ .object →
      classes.derives child parent = true → classes.Above child parent := by
    intro child parent different notRoot found
    rcases (decides child parent).mp found with same | ⟨isRoot, _⟩ | above
    · exact absurd same different
    · exact absurd isRoot notRoot
    · exact above
  have toBase : classes.derives foot.1 base.1 = true := by decide +kernel
  refine ⟨built, above _ _ (by decide) (by decide) toBase,
    above _ _ (by decide) (by decide) (by decide +kernel), ?_, root _ (by decide), ?_⟩
  · -- Were there a climb from one side to the other, the walk would have found it.
    intro climb
    have found := (decides left.1 right.1).mpr (.inr (.inr climb))
    exact absurd found (by decide +kernel)
  · apply Bool.eq_false_iff.mpr
    -- The walk finds the way up, and by antisymmetry there is none back.
    intro back
    exact absurd (antisymm _ _ toBase back) (by decide)

end Hierarchy

end Misfit
