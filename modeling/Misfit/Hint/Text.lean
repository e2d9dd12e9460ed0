import Misfit.Hint.Basic
import Misfit.Value.Text

/-! The text of a hint. -/

namespace Misfit

namespace Hint

/-- The text of a union, from its members and their texts. A pair with `None` is written as the
other member made optional, whichever comes first. -/
def unionText (members : List Hint) (texts : List String) : String :=
  match members, texts with
  | [first, second], [firstText, secondText] =>
    if second.isInstanceOf .noneType then "Optional[" ++ firstText ++ "]"
    else if first.isInstanceOf .noneType then "Optional[" ++ secondText ++ "]"
    else "Union[" ++ firstText ++ ", " ++ secondText ++ "]"
  | _, _ => "Union[" ++ ", ".intercalate texts ++ "]"

mutual

/-- The text of a hint. -/
def text (classes : Hierarchy) : Hint → String
  | .any => "Any"
  | .instanceOf ref => classes.nameOf ref
  | .union members => unionText members (texts classes members)
  | .collection form item => form.name ++ "[" ++ text classes item ++ "]"
  | .tuple items =>
    -- The tuple without items has brackets of its own, as nothing else would stand there.
    "Tuple[" ++ (if items.isEmpty then "()" else ", ".intercalate (texts classes items)) ++ "]"
  | .tupleOf item => "Tuple[" ++ text classes item ++ ", ...]"
  | .mapping form key value =>
    form.name ++ "[" ++ text classes key ++ ", " ++ text classes value ++ "]"
  | .generic origin _ => classes.nameOf origin
  | .subclassOf ref => "Type[" ++ classes.nameOf ref ++ "]"
  | .literal values => "Literal[" ++ ", ".intercalate (values.map (Value.text classes)) ++ "]"
  | .forwardRef name => "'" ++ name ++ "'"
  | .callable parameters result =>
    "Callable[[" ++ ", ".intercalate (texts classes parameters) ++ "], " ++
      text classes result ++ "]"
  | .typeVar name => "~" ++ name
  | .foreign text => text

/-- The texts of the given hints. -/
def texts (classes : Hierarchy) : List Hint → List String
  | [] => []
  | hint :: rest => text classes hint :: texts classes rest

end

end Hint

end Misfit
