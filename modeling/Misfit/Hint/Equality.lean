import Misfit.Hint.Basic
import Misfit.Value.Equality

/-! Equality of hints: of one form, with equal parts in one order. As with values, lengths are
compared before parts. -/

namespace Misfit

namespace Hint

mutual

/-- Whether two hints are equal part by part. -/
def equal : Hint → Hint → Bool
  | .any, .any => true
  | .instanceOf ref, .instanceOf ref' => ref == ref'
  | .union members, .union members' =>
    members.length == members'.length && equalAll members members'
  | .collection form item, .collection form' item' => form == form' && equal item item'
  | .tuple items, .tuple items' => items.length == items'.length && equalAll items items'
  | .tupleOf item, .tupleOf item' => equal item item'
  | .mapping form key value, .mapping form' key' value' =>
    form == form' && equal key key' && equal value value'
  | .generic origin bases, .generic origin' bases' =>
    origin == origin' && bases.length == bases'.length && equalAll bases bases'
  | .subclassOf ref, .subclassOf ref' => ref == ref'
  | .literal values, .literal values' =>
    values.length == values'.length && Value.equalItems values values'
  | .forwardRef name, .forwardRef name' => name == name'
  | .callable parameters result, .callable parameters' result' =>
    parameters.length == parameters'.length && equalAll parameters parameters' &&
      equal result result'
  | .typeVar name, .typeVar name' => name == name'
  | .foreign text, .foreign text' => text == text'
  | _, _ => false

/-- Whether two lists of hints are equal hint by hint. -/
def equalAll : List Hint → List Hint → Bool
  | [], [] => true
  | hint :: rest, hint' :: rest' => equal hint hint' && equalAll rest rest'
  | _, _ => false

end

instance : BEq Hint := ⟨equal⟩

end Hint

end Misfit
