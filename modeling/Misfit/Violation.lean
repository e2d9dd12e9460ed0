import Misfit.Query.Cause

/-! Calls of a function with a value that does not fit its hint. -/

namespace Misfit

/-- The part that a value plays in a call. -/
inductive Role where
  | parameter (name : String)
  | result
deriving DecidableEq

namespace Role

/-- The wording of a role. -/
def text : Role → String
  | .parameter name => "parameter " ++ name
  | .result => "return"

/-- What stands between a role and the value in it. -/
def connective : Role → String
  | .parameter _ => "="
  | .result => " "

/-- The label of a value in a call of a function. -/
def label (role : Role) (function : String) : String := function ++ "() " ++ role.text

end Role

/-- A call in which a value does not fit its hint. -/
structure Violation where
  role : Role
  cause : String
  message : String
deriving DecidableEq

/-- Explains the violation of a hint in a call; it fails if the value fits after all. -/
def Violation.explain (classes : Hierarchy) (style : Style) (function : String) (role : Role)
    (value : Value) (hint : Hint) : Except Failure Violation :=
  let label := role.label function
  let shown := value.brief classes style.excerptLimit
  let query : Query := ⟨value, hint, "", label, classes, style⟩
  match query.cause with
  | .error failure => .error failure
  | .ok none => .error (.alreadyFits label shown (hint.text classes))
  | .ok (some cause) =>
    .ok {
      role
      cause
      message := label ++ role.connective ++ shown ++ " violates type hint " ++ hint.text classes ++
        ", as " ++ cause ++ "." }

end Misfit
