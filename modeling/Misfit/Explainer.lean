import Misfit.Hint.Category

/-! The explainers, and which of them looks after a hint. -/

namespace Misfit

/-- An explainer knows why values do not fit hints of certain forms. -/
inductive Explainer where
  | any
  | plainClass
  | forwardRef
  | generic
  | literal
  | mapping
  | collection
  | subclass
  | tuple
  | union
deriving DecidableEq

namespace Explainer

/-- Every explainer. -/
def all : List Explainer := [
  .any, .plainClass, .forwardRef, .generic, .literal, .mapping, .collection, .subclass, .tuple,
  .union]

/-- The name of an explainer. -/
def name : Explainer → String
  | .any => "any"
  | .plainClass => "class"
  | .forwardRef => "forward_ref"
  | .generic => "generic"
  | .literal => "literal"
  | .mapping => "mapping"
  | .collection => "sequence"
  | .subclass => "subclass"
  | .tuple => "tuple"
  | .union => "union"

end Explainer

namespace Category

/-- The explainer of a category; functions and variables have none. -/
def explainer? : Category → Option Explainer
  | .any => some .any
  | .union => some .union
  | .collection _ => some .collection
  | .tuple => some .tuple
  | .mapping _ => some .mapping
  | .generic => some .generic
  | .subclass => some .subclass
  | .literal => some .literal
  | .forwardRef => some .forwardRef
  | .callable => none
  | .typeVar => none

/-- The categories that have an explainer, in the order in which categories are listed. -/
def explained : List Category := all.filter fun category => category.explainer?.isSome

end Category

/-- The explainer of a hint, if it has one. -/
def Hint.explainer? (hint : Hint) : Option Explainer :=
  match hint with
  | .instanceOf _ => some .plainClass
  | hint => hint.category?.bind Category.explainer?

end Misfit
