import Mathlib.Logic.Function.Basic
import Misfit.Proofs.Hierarchy.Extends

/-! The latest class of a name is the greatest of all classes with that name, and the one that was
entered last in an index kept up by definitions. -/

namespace Misfit

namespace Hierarchy

/-- A class is defined under a name. -/
def Named (classes : Hierarchy) (name : String) (ref : ClassRef) : Prop :=
  ∃ record, classes.get? ref = some record ∧ record.name = name

/-- An index of classes by name, into which the classes of the given names are entered in turn, each
in place of the class that had its name before. -/
def indexOf (names : List String) : String → Option ClassRef :=
  names.zipIdx.foldl (fun index entry => Function.update index entry.1 (some ⟨entry.2⟩))
    fun _ => none

/-- The names of all classes, in the order of definition. -/
def names (classes : Hierarchy) : List String := classes.records.toList.map (·.name)

/-- The class that the index holds for a name is the greatest of all classes with that name. -/
theorem latest?_eq_some_iff {classes : Hierarchy} {name : String} {ref : ClassRef} :
    classes.latest? name = some ref ↔
      classes.Named name ref ∧ ∀ other, classes.Named name other → other.index ≤ ref.index := by
  constructor
  · intro found
    refine ⟨classes.indexes.named found, ?_⟩
    -- Another class of the name is hidden by the one found.
    rintro other ⟨record, recorded, rfl⟩
    obtain ⟨last, held, later⟩ := classes.indexes.latest recorded
    have same : last = ref := Option.some.inj (held.symm.trans found)
    rwa [← same]
  · rintro ⟨⟨record, recorded, rfl⟩, greatest⟩
    -- The index holds a class of the name that is neither smaller nor greater.
    obtain ⟨last, held, later⟩ := classes.indexes.latest recorded
    have earlier := greatest last (classes.indexes.named held)
    have same : last = ref := congrArg ClassRef.mk (Nat.le_antisymm earlier later)
    rw [← same]
    exact held

/-- The index holds no class for a name exactly if no class has it. -/
theorem latest?_eq_none_iff {classes : Hierarchy} {name : String} :
    classes.latest? name = none ↔ ∀ ref, ¬classes.Named name ref := by
  constructor
  · rintro missing ref ⟨record, recorded, rfl⟩
    -- A class with the name would be found under it, or one that hides it.
    obtain ⟨last, held, _⟩ := classes.indexes.latest recorded
    exact nomatch missing.symm.trans held
  · intro unnamed
    -- What the index leads to has the name.
    apply Option.eq_none_iff_forall_ne_some.mpr
    intro ref found
    exact unnamed ref (classes.indexes.named found)

/-- A further record makes its class the latest of its name, and leaves those of all other names. -/
theorem latest?_push (classes : Hierarchy) (record : ClassRecord) :
    (classes.push record).latest? =
      Function.update classes.latest? record.name (some ⟨classes.size⟩) := by
  -- The new entry stands in front of all others, and hides those of its own name only.
  funext name
  rw [latest?, push, List.lookup_cons]
  by_cases same : name = record.name
  · subst same
    simp [size]
  · have other : (name == record.name) = false := beq_eq_false_iff_ne.mpr same
    rw [Function.update_of_ne same, other]
    rfl

/-- A definition makes its class the latest of its name, and leaves those of all other names. -/
theorem latest?_define (classes : Hierarchy) (name : String) (bases : List ClassRef) :
    (classes.define name bases).2.latest? =
      Function.update classes.latest? name (some (classes.define name bases).1) :=
  -- The class of a definition is the one that its record is added for.
  classes.latest?_push _

/-- What an index kept up with all records holds it also holds with one record more. -/
theorem latest?_push_eq_indexOf {classes : Hierarchy}
    (kept : classes.latest? = indexOf classes.names) (record : ClassRecord) :
    (classes.push record).latest? = indexOf (classes.push record).names := by
  -- The last of the names is entered as the record is added.
  rw [latest?_push, kept]
  simp [indexOf, names, push, size, List.zipIdx_append]

/-- In a hierarchy built by definitions, the latest class of a name is the one that an index holds
into which all classes are entered in turn. -/
theorem WellBuilt.latest?_eq_indexOf {classes : Hierarchy} (built : classes.WellBuilt) :
    classes.latest? = indexOf classes.names := by
  -- Every class comes with a record that is added, the predefined ones as well.
  have general : ∀ (records : List ClassRecord) (before : Hierarchy),
      before.latest? = indexOf before.names →
        (records.foldl push before).latest? = indexOf (records.foldl push before).names := by
    intro records
    induction records with
    | nil => exact fun _ kept => kept
    | cons record rest ih => exact fun before kept => ih _ (latest?_push_eq_indexOf kept record)
  induction built with
  -- The predefined classes are added to none, and every other to those before it.
  | initial => exact general predefined empty rfl
  | define name _ _ ih => exact latest?_push_eq_indexOf ih _

end Hierarchy

end Misfit
