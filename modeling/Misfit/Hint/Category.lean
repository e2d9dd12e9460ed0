import Misfit.Hint.Basic

/-! The categories of composite hints. -/

namespace Misfit

/-- The form of a composite hint. -/
inductive Category where
  | any
  | union
  | collection (form : CollectionForm)
  | tuple
  | mapping (form : MappingForm)
  | generic
  | subclass
  | literal
  | forwardRef
  | callable
  | typeVar
deriving DecidableEq

namespace Category

/-- Every category, in the order in which they are listed. -/
def all : List Category := [
  .any, .union,
  .collection .list, .collection .sequence, .collection .mutableSequence,
  .collection .set, .collection .frozenSet, .collection .abstractSet, .collection .mutableSet,
  .tuple,
  .mapping .dict, .mapping .mapping, .mapping .mutableMapping,
  .generic, .subclass, .literal, .forwardRef, .callable, .typeVar]

/-- The name of a category. -/
def name : Category → String
  | .any => "Any"
  | .union => "Union"
  | .collection form => form.name
  | .tuple => "Tuple"
  | .mapping form => form.name
  | .generic => "Generic"
  | .subclass => "Type"
  | .literal => "Literal"
  | .forwardRef => "ForwardRef"
  | .callable => "Callable"
  | .typeVar => "TypeVar"

end Category

/-- The category of a hint, if it is composite. -/
def Hint.category? : Hint → Option Category
  | .any => some .any
  | .instanceOf _ => none
  | .union _ => some .union
  | .collection form _ => some (.collection form)
  | .tuple _ => some .tuple
  | .tupleOf _ => some .tuple
  | .mapping form _ _ => some (.mapping form)
  | .generic _ _ => some .generic
  | .subclassOf _ => some .subclass
  | .literal _ => some .literal
  | .forwardRef _ => some .forwardRef
  | .callable _ _ => some .callable
  | .typeVar _ => some .typeVar
  | .foreign _ => none

/-- Whether a hint is composite: a plain class and a hint of unknown form are not. -/
def Hint.hasCategory (hint : Hint) : Bool := hint.category?.isSome

end Misfit
