import Misfit.Hierarchy.Basic
import Misfit.Number.Positional
import Misfit.Text.Quoted
import Misfit.Value.Basic

/-! The full text of a value. -/

namespace Misfit

namespace ContainerKind

/-- What stands before the items of a container that holds `count` of them. -/
def opening : ContainerKind → (count : Nat) → String
  | .list, _ => "["
  | .tuple, _ => "("
  | .set, 0 => "set("
  | .set, _ => "\x7b"
  | .frozenset, 0 => "frozenset("
  | .frozenset, _ => "frozenset(\x7b"

/-- What stands after the items; a lone item of a tuple is followed by a comma. -/
def closing : ContainerKind → (count : Nat) → String
  | .list, _ => "]"
  | .tuple, 1 => ",)"
  | .tuple, _ => ")"
  | .set, 0 => ")"
  | .set, _ => "\x7d"
  | .frozenset, 0 => ")"
  | .frozenset, _ => "\x7d)"

end ContainerKind

namespace Value

mutual

/-- The text of a value: the spelling that would build it, or that names its class. -/
def text (classes : Hierarchy) : Value → String
  | .none => "None"
  | .bool truth => if truth then "True" else "False"
  | .int number => Decimal.ofInt number
  | .float number => number.text
  | .str content => Quoted.text content
  | .bytes content => Quoted.bytes content
  | .container kind items =>
    kind.opening items.length ++ ", ".intercalate (itemTexts classes items) ++
      kind.closing items.length
  | .dict entries => "\x7b" ++ ", ".intercalate (entryTexts classes entries) ++ "\x7d"
  | .classObject ref => "<class '" ++ classes.nameOf ref ++ "'>"
  | .object ref => "<" ++ classes.nameOf ref ++ " object>"
  | .itemsObject ref items =>
    classes.nameOf ref ++ "([" ++ ", ".intercalate (itemTexts classes items) ++ "])"
  | .entriesObject ref entries =>
    classes.nameOf ref ++ "(\x7b" ++ ", ".intercalate (entryTexts classes entries) ++ "\x7d)"

/-- The texts of the given values. -/
def itemTexts (classes : Hierarchy) : List Value → List String
  | [] => []
  | item :: rest => text classes item :: itemTexts classes rest

/-- The texts of the given entries, each a key and a value with a colon between them. -/
def entryTexts (classes : Hierarchy) : List (Value × Value) → List String
  | [] => []
  | (key, value) :: rest =>
    (text classes key ++ ": " ++ text classes value) :: entryTexts classes rest

end

end Value

end Misfit
