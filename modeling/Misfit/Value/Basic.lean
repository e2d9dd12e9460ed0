import Misfit.ClassRef
import Misfit.Number.Binary64

/-! The values that are checked, their classes, and what can be seen of their contents. -/

namespace Misfit

/-- The kinds of container that hold items. -/
inductive ContainerKind where
  | list
  | tuple
  | set
  | frozenset
deriving DecidableEq

/-- A value; containers and dictionaries keep what they hold in the given order. -/
inductive Value where
  | none
  | bool (truth : Bool)
  | int (number : Int)
  | float (number : Binary64)
  | str (content : String)
  | bytes (content : List UInt8)
  | container (kind : ContainerKind) (items : List Value)
  | dict (entries : List (Value × Value))
  /-- A class used as a value. -/
  | classObject (ref : ClassRef)
  /-- An instance of a class, of whose contents nothing can be seen. -/
  | object (ref : ClassRef)
  /-- An instance of a class with visible items. -/
  | itemsObject (ref : ClassRef) (items : List Value)
  /-- An instance of a class with visible keys and values. -/
  | entriesObject (ref : ClassRef) (entries : List (Value × Value))

/-- The class of the containers of a kind. -/
def ContainerKind.classRef : ContainerKind → ClassRef
  | .list => .list
  | .tuple => .tuple
  | .set => .set
  | .frozenset => .frozenset

namespace Value

/-- The class that a value is a direct instance of. -/
def classRef : Value → ClassRef
  | .none => .noneType
  | .bool _ => .bool
  | .int _ => .int
  | .float _ => .float
  | .str _ => .str
  | .bytes _ => .bytes
  | .container kind _ => kind.classRef
  | .dict _ => .dict
  | .classObject _ => .type
  | .object ref => ref
  | .itemsObject ref _ => ref
  | .entriesObject ref _ => ref

/-- The items of a value, if it has visible ones: a text has its characters, each as a text, and a
byte sequence its bytes, each as an integer. -/
def items? : Value → Option (List Value)
  | .str content => some (content.toList.map fun c => .str (String.singleton c))
  | .bytes content => some (content.map fun byte => .int byte.toNat)
  | .container _ items => some items
  | .itemsObject _ items => some items
  | _ => Option.none

/-- The keys and values of a value, if it has visible ones. -/
def pairs? : Value → Option (List (Value × Value))
  | .dict entries => some entries
  | .entriesObject _ entries => some entries
  | _ => Option.none

end Value

end Misfit
