/-! References to classes, and the classes that every hierarchy starts with. -/

namespace Misfit

/-- A reference to a class, by its place in the order of definition. -/
structure ClassRef where
  index : Nat
deriving DecidableEq

namespace ClassRef

/-- The root, above every class of a hierarchy. -/
def object : ClassRef := ⟨0⟩

/-- The class of the value `None`. -/
def noneType : ClassRef := ⟨1⟩

/-- The class of truth values. -/
def bool : ClassRef := ⟨2⟩

/-- The class of integers. -/
def int : ClassRef := ⟨3⟩

/-- The class of binary floating-point numbers. -/
def float : ClassRef := ⟨4⟩

/-- The class of texts. -/
def str : ClassRef := ⟨5⟩

/-- The class of byte sequences. -/
def bytes : ClassRef := ⟨6⟩

/-- The class of lists. -/
def list : ClassRef := ⟨7⟩

/-- The class of tuples. -/
def tuple : ClassRef := ⟨8⟩

/-- The class of dictionaries. -/
def dict : ClassRef := ⟨9⟩

/-- The class of sets. -/
def set : ClassRef := ⟨10⟩

/-- The class of frozen sets. -/
def frozenset : ClassRef := ⟨11⟩

/-- The class of class objects. -/
def type : ClassRef := ⟨12⟩

/-- The abstract class of ordered collections. -/
def sequence : ClassRef := ⟨13⟩

/-- The abstract class of ordered collections that can change. -/
def mutableSequence : ClassRef := ⟨14⟩

/-- The abstract class of unordered collections. -/
def abstractSet : ClassRef := ⟨15⟩

/-- The abstract class of unordered collections that can change. -/
def mutableSet : ClassRef := ⟨16⟩

/-- The abstract class of collections of keys and values. -/
def mapping : ClassRef := ⟨17⟩

/-- The abstract class of collections of keys and values that can change. -/
def mutableMapping : ClassRef := ⟨18⟩

/-- How many classes every hierarchy starts with. -/
def predefinedCount : Nat := 19

/-- Whether a class is among those that every hierarchy starts with. -/
def isPredefined (ref : ClassRef) : Bool := ref.index < predefinedCount

end ClassRef

end Misfit
