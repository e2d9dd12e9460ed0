import Misfit.ClassRef

/-! The classes defined so far: more can follow, and each keeps its name and its direct bases. -/

namespace Misfit

/-- What its definition says of a class. -/
structure ClassRecord where
  name : String
  bases : List ClassRef
deriving DecidableEq

/-- An index leads from every name in use to the class that was last defined under it. -/
structure Indexes (index : List (String × ClassRef)) (records : Array ClassRecord) : Prop where
  /-- Whatever class the index leads to has the name. -/
  named : ∀ {name ref}, index.lookup name = some ref →
    ∃ record, records[ref.index]? = some record ∧ record.name = name
  /-- Every class is found under its name, unless a later one hides it. -/
  latest : ∀ {place record}, records[place]? = some record →
    ∃ ref, index.lookup record.name = some ref ∧ place ≤ ref.index

/-- The classes defined so far, each at the place by which it is referred to. -/
structure Hierarchy where
  records : Array ClassRecord
  /-- The classes by name. An entry hides those of the same name that stand behind it. -/
  index : List (String × ClassRef)
  indexes : Indexes index records

/-- A record that is added takes the first free place, and its class hides those of its name. -/
theorem Indexes.push {index : List (String × ClassRef)} {records : Array ClassRecord}
    (indexes : Indexes index records) (record : ClassRecord) :
    Indexes ((record.name, ⟨records.size⟩) :: index) (records.push record) where
  named := by
    -- The new entry leads to the new place, and every other entry to a place that is kept.
    intro name ref found
    rw [List.lookup_cons] at found
    split at found
    · next same =>
      cases found
      exact ⟨record, Array.getElem?_push_size, (beq_iff_eq.mp same).symm⟩
    · -- The record that the entry leads to stands before the new one.
      obtain ⟨old, recorded, itsName⟩ := indexes.named found
      obtain ⟨inside, _⟩ := Array.getElem?_eq_some_iff.mp recorded
      exact ⟨old, by rwa [Array.getElem?_push, if_neg (Nat.ne_of_lt inside)], itsName⟩
  latest := by
    -- The new place is the greatest of all, so it is the one to be found under its name.
    intro place other recorded
    rw [List.lookup_cons]
    rw [Array.getElem?_push] at recorded
    split at recorded
    · next new =>
      cases recorded
      exact ⟨⟨records.size⟩, by simp, Nat.le_of_eq new⟩
    · -- An older place gives way to the new one, if that has its name.
      obtain ⟨ref, found, later⟩ := indexes.latest recorded
      obtain ⟨inside, _⟩ := Array.getElem?_eq_some_iff.mp recorded
      split
      · exact ⟨⟨records.size⟩, rfl, Nat.le_of_lt inside⟩
      · exact ⟨ref, found, later⟩

namespace Hierarchy

/-- The hierarchy without any class. -/
def empty : Hierarchy where
  records := #[]
  index := []
  indexes := ⟨nofun, nofun⟩

/-- Adds a class at the first free place, and enters it in the index. -/
def push (classes : Hierarchy) (record : ClassRecord) : Hierarchy where
  records := classes.records.push record
  index := (record.name, ⟨classes.records.size⟩) :: classes.index
  indexes := classes.indexes.push record

/-- The records of the classes that every hierarchy starts with, in the order of their places. -/
def predefined : List ClassRecord := [
  ⟨"object", []⟩,
  ⟨"NoneType", [.object]⟩,
  ⟨"bool", [.int]⟩,
  ⟨"int", [.object]⟩,
  ⟨"float", [.object]⟩,
  ⟨"str", [.sequence]⟩,
  ⟨"bytes", [.sequence]⟩,
  ⟨"list", [.mutableSequence]⟩,
  ⟨"tuple", [.sequence]⟩,
  ⟨"dict", [.mutableMapping]⟩,
  ⟨"set", [.mutableSet]⟩,
  ⟨"frozenset", [.abstractSet]⟩,
  ⟨"type", [.object]⟩,
  ⟨"Sequence", [.object]⟩,
  ⟨"MutableSequence", [.sequence]⟩,
  ⟨"AbstractSet", [.object]⟩,
  ⟨"MutableSet", [.abstractSet]⟩,
  ⟨"Mapping", [.object]⟩,
  ⟨"MutableMapping", [.mapping]⟩]

/-- The classes that every hierarchy starts with. -/
def initial : Hierarchy := predefined.foldl push empty

/-- How many classes are defined. -/
def size (classes : Hierarchy) : Nat := classes.records.size

/-- Defines one more class, and says how to refer to it. -/
def define (classes : Hierarchy) (name : String) (bases : List ClassRef) : ClassRef × Hierarchy :=
  -- Only the root has no base, so a class that is given none stands directly below the root.
  let bases := if bases.isEmpty then [ClassRef.object] else bases
  (⟨classes.size⟩, classes.push ⟨name, bases⟩)

/-- The record of a class, if it is defined. -/
def get? (classes : Hierarchy) (ref : ClassRef) : Option ClassRecord := classes.records[ref.index]?

/-- Whether a class is defined. -/
def contains (classes : Hierarchy) (ref : ClassRef) : Bool := ref.index < classes.size

/-- The defined classes, in the order of definition. -/
def refs (classes : Hierarchy) : List ClassRef := (List.range classes.size).map ClassRef.mk

/-- The name of a class, or a placeholder if it is not defined. -/
def nameOf (classes : Hierarchy) (ref : ClassRef) : String :=
  match classes.get? ref with
  | some record => record.name
  | none => "<unknown class>"

/-- The direct bases of a class, none if it is not defined. -/
def basesOf (classes : Hierarchy) (ref : ClassRef) : List ClassRef :=
  match classes.get? ref with
  | some record => record.bases
  | none => []

/-- The latest class of a name, which hides all earlier ones. -/
def latest? (classes : Hierarchy) (name : String) : Option ClassRef := classes.index.lookup name

end Hierarchy

end Misfit
