import Misfit.Cause.Basic
import Misfit.Hint.Category

/-! What a check finds: that a value fits, why it does not, or what kept it from being checked. -/

namespace Misfit

/-- What keeps a hint from being checked. -/
inductive Obstacle where
  /-- The hint is of a form that no explainer accepts. -/
  | unknownForm (hint : Hint)
  /-- The hint's category has no explainer. -/
  | noExplainer (hint : Hint) (category : Category)
  /-- No class has the name that the hint refers to. -/
  | unresolved (name : String)

/-- The outcome of checking a value against hints. -/
inductive Finding (α : Type) where
  | fits
  | misfit (reason : α)
  | blocked (obstacle : Obstacle)

namespace Finding

/-- Rewords the reason of a misfit. -/
def map {α β : Type} (reword : α → β) : Finding α → Finding β
  | .fits => .fits
  | .misfit reason => .misfit (reword reason)
  | .blocked obstacle => .blocked obstacle

/-- A further check, made only where the value fits so far. -/
@[inline] def andThen {α : Type} (found : Finding α) (next : Unit → Finding α) : Finding α :=
  match found with
  | .fits => next ()
  | settled => settled

/-- A check that is left out where the hint asks nothing. -/
@[inline] def unlessVacuous {α : Type} (hint : Hint) (found : Unit → Finding α) : Finding α :=
  if hint.isVacuous then .fits else found ()

/-- The finding at the first item that does not fit, in the order of the items. -/
def firstOf {α β : Type} (check : α → Finding β) : List α → Finding β
  | [] => .fits
  | item :: rest =>
    match check item with
    | .fits => firstOf check rest
    | settled => settled

/-- The finding on a part of a value, as a finding on the value. -/
def inside (value : Value) (step : Step) (found : Finding Cause) : Finding Cause :=
  found.map (.within value step)

end Finding

end Misfit
