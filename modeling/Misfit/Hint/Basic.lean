import Misfit.Value.Basic

/-! Type hints: the forms that a hint can take, and its direct parts. -/

namespace Misfit

/-- The forms of hint for a collection of items of one hint. -/
inductive CollectionForm where
  | list
  | sequence
  | mutableSequence
  | set
  | frozenSet
  | abstractSet
  | mutableSet
deriving DecidableEq

namespace CollectionForm

/-- The name under which a form is written. -/
def name : CollectionForm → String
  | .list => "List"
  | .sequence => "Sequence"
  | .mutableSequence => "MutableSequence"
  | .set => "Set"
  | .frozenSet => "FrozenSet"
  | .abstractSet => "AbstractSet"
  | .mutableSet => "MutableSet"

/-- The class that a collection of a form has to be an instance of. -/
def origin : CollectionForm → ClassRef
  | .list => .list
  | .sequence => .sequence
  | .mutableSequence => .mutableSequence
  | .set => .set
  | .frozenSet => .frozenset
  | .abstractSet => .abstractSet
  | .mutableSet => .mutableSet

/-- Whether the items of a collection of a form have positions worth telling. -/
def hasPositions : CollectionForm → Bool
  | .list | .sequence | .mutableSequence => true
  | .set | .frozenSet | .abstractSet | .mutableSet => false

end CollectionForm

/-- The forms of hint for a collection of keys and values. -/
inductive MappingForm where
  | dict
  | mapping
  | mutableMapping
deriving DecidableEq

namespace MappingForm

/-- The name under which a form is written. -/
def name : MappingForm → String
  | .dict => "Dict"
  | .mapping => "Mapping"
  | .mutableMapping => "MutableMapping"

/-- The class that a collection of a form has to be an instance of. -/
def origin : MappingForm → ClassRef
  | .dict => .dict
  | .mapping => .mapping
  | .mutableMapping => .mutableMapping

end MappingForm

/-- A type hint: what a value is asked to be. -/
inductive Hint where
  /-- Any value. -/
  | any
  /-- An instance of a class. -/
  | instanceOf (ref : ClassRef)
  /-- A value of any one of the members. -/
  | union (members : List Hint)
  /-- A collection whose items all fit one hint. -/
  | collection (form : CollectionForm) (item : Hint)
  /-- A tuple with one item for each hint. -/
  | tuple (items : List Hint)
  /-- A tuple of any length whose items all fit one hint. -/
  | tupleOf (item : Hint)
  /-- A collection whose keys fit one hint and whose values fit another. -/
  | mapping (form : MappingForm) (key value : Hint)
  /-- An instance of a class that also fits each of the hints on which the class is built. -/
  | generic (origin : ClassRef) (bases : List Hint)
  /-- A class object that descends from a class. -/
  | subclassOf (ref : ClassRef)
  /-- One of the named values. -/
  | literal (values : List Value)
  /-- An instance of the latest class of a name, looked up when a value is checked. -/
  | forwardRef (name : String)
  /-- A function from the parameters to the result. Values are never checked against it. -/
  | callable (parameters : List Hint) (result : Hint)
  /-- A variable that stands for hints. Values are never checked against it. -/
  | typeVar (name : String)
  /-- A hint of which only its text is known. Values are never checked against it. -/
  | foreign (text : String)

namespace Hint

/-- The hint of the value `None`. -/
def nothing : Hint := .instanceOf .noneType

/-- Whether a hint asks for an instance of one particular class. -/
def isInstanceOf (ref : ClassRef) : Hint → Bool
  | .instanceOf ref' => ref' == ref
  | _ => false

/-- Whether a hint asks nothing of a value, so that parts of a value under it are passed over. -/
def isVacuous : Hint → Bool
  | .any => true
  | hint => hint.isInstanceOf .object

/-- The direct parts of a hint, in the order in which they are written. -/
def parts : Hint → List Hint
  | .union members => members
  | .collection _ item => [item]
  | .tuple items => items
  | .tupleOf item => [item]
  | .mapping _ key value => [key, value]
  | .generic _ bases => bases
  | .callable parameters result => parameters ++ [result]
  | _ => []

end Hint

end Misfit
