import Misfit.Cause.Basic
import Misfit.Hint.Text
import Misfit.Style
import Misfit.Text.Disjunction
import Misfit.Value.Excerpt

/-! The wording of a cause: one line, or one line and a bulleted line for each alternative. -/

namespace Misfit

/-- The wording of an expectation that was not met. -/
def Expectation.text (classes : Hierarchy) (style : Style) : Expectation → String
  | .instanceOf refs => "not " ++ disjunction (refs.map classes.nameOf)
  | .oneOf values => "not " ++ disjunction (values.map (Value.brief classes style.excerptLimit))
  | .classObject => "not class"
  | .subclassOf ref => "not subclass of " ++ classes.nameOf ref
  | .emptyTuple => "not empty tuple"
  | .length actual expected =>
    "length " ++ Decimal.ofNat actual ++ " not " ++ Decimal.ofNat expected

/-- The wording of the way to a part. -/
def Step.text (classes : Hierarchy) (style : Style) : Step → String
  | .index position => "index " ++ Decimal.ofNat position ++ " item"
  | .item => "item"
  | .key => "key"
  | .valueAt stored => "key " ++ stored.brief classes style.excerptLimit ++ " value"

/-- A headline and, below it, one bullet for each line. -/
def bulleted (headline indent : String) (lines : List String) : String :=
  headline ++ String.join (lines.map fun line => "\n" ++ indent ++ "* " ++ line)

namespace Cause

mutual

/-- The wording of a cause whose later lines start at `indent`. -/
def text (classes : Hierarchy) (style : Style) (indent : String) : Cause → String
  | .mismatch value expected =>
    value.describe classes style.excerptLimit ++ " " ++ expected.text classes style
  | .within value step inner =>
    value.describe classes style.excerptLimit ++ " " ++ step.text classes style ++ " " ++
      text classes style indent inner
  | .alternatives value members causes =>
    -- Alternatives are worded one level deeper, even where one stands alone without a bullet.
    let bulletIndent := indent ++ style.bulletIndent
    match texts classes style bulletIndent causes with
    | [] => value.describe classes style.excerptLimit ++ " not any member of empty union"
    | [only] => only
    | several =>
      bulleted
        (value.describe classes style.excerptLimit ++ " not any member of " ++
          (Hint.union members).text classes ++ ":")
        bulletIndent several

/-- The wordings of the given causes. -/
def texts (classes : Hierarchy) (style : Style) (indent : String) : List Cause → List String
  | [] => []
  | cause :: rest => text classes style indent cause :: texts classes style indent rest

end

end Cause

end Misfit
