import Misfit.Value.Basic

/-! Equality of values: of one shape, with equal parts in one order, and numeric equality on
floating-point numbers. Lengths are compared before parts, so that a difference in length is found
without a look at parts, which can share parts of their own many times over. -/

namespace Misfit

namespace Value

mutual

/-- Whether two values are equal part by part. -/
def equal : Value → Value → Bool
  | .none, .none => true
  | .bool a, .bool b => a == b
  | .int a, .int b => a == b
  | .float a, .float b => a == b
  | .str a, .str b => a == b
  | .bytes a, .bytes b => a == b
  | .container kind items, .container kind' items' =>
    kind == kind' && items.length == items'.length && equalItems items items'
  | .dict entries, .dict entries' =>
    entries.length == entries'.length && equalEntries entries entries'
  | .classObject ref, .classObject ref' => ref == ref'
  | .object ref, .object ref' => ref == ref'
  | .itemsObject ref items, .itemsObject ref' items' =>
    ref == ref' && items.length == items'.length && equalItems items items'
  | .entriesObject ref entries, .entriesObject ref' entries' =>
    ref == ref' && entries.length == entries'.length && equalEntries entries entries'
  | _, _ => false

/-- Whether two lists of values are equal item by item. -/
def equalItems : List Value → List Value → Bool
  | [], [] => true
  | item :: rest, item' :: rest' => equal item item' && equalItems rest rest'
  | _, _ => false

/-- Whether two lists of keys and values are equal entry by entry. -/
def equalEntries : List (Value × Value) → List (Value × Value) → Bool
  | [], [] => true
  | (key, value) :: rest, (key', value') :: rest' =>
    equal key key' && equal value value' && equalEntries rest rest'
  | _, _ => false

end

instance : BEq Value := ⟨equal⟩

/-- Whether a value is the one that a literal names: of the same class, and equal. -/
def isLiterally (value named : Value) : Bool := value.classRef == named.classRef && value == named

end Value

end Misfit
