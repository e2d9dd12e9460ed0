import Misfit.Finding
import Misfit.Hint.Text

/-! Why no cause can be given, and how that is worded. -/

namespace Misfit

/-- Why no cause can be given. Each failure carries the label under which the caller knows the
value, and the texts that its message shows. -/
inductive Failure where
  /-- The hint is neither composite nor a plain class. -/
  | unknownForm (label hint : String)
  /-- The hint's category has no explainer. -/
  | noExplainer (label hint : String) (category : Category)
  /-- The hint refers to a name that no class has. -/
  | unresolvedName (label name : String)
  /-- The value was reported as a misfit and yet fits its hint. -/
  | alreadyFits (label value hint : String)
deriving DecidableEq

namespace Failure

/-- The caller's label for the value. -/
def label : Failure → String
  | .unknownForm label _ => label
  | .noExplainer label _ _ => label
  | .unresolvedName label _ => label
  | .alreadyFits label _ _ => label

/-- The wording of a failure, which starts with the caller's label. -/
def message : Failure → String
  | .unknownForm label hint =>
    label ++ " type hint " ++ hint ++
      " unsupported (i.e., neither composite hint nor plain class)"
  | .noExplainer label hint category =>
    label ++ " type hint " ++ hint ++ " unsupported (i.e., no explainer registered for " ++
      category.name ++ " hints)"
  | .unresolvedName label name =>
    label ++ " forward reference '" ++ name ++
      "' unresolvable (i.e., no class of that name defined)"
  | .alreadyFits label value hint =>
    label ++ " value " ++ value ++ " satisfies type hint " ++ hint ++
      " (i.e., no violation to explain)"

end Failure

/-- The failure that an obstacle leads to, under the caller's label. -/
def Obstacle.failure (classes : Hierarchy) (label : String) : Obstacle → Failure
  | .unknownForm hint => .unknownForm label (hint.text classes)
  | .noExplainer hint category => .noExplainer label (hint.text classes) category
  | .unresolved name => .unresolvedName label name

end Misfit
