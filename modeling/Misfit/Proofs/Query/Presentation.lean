import Misfit.Proofs.Query.Answer

/-! What a query says about its presentation decides how its answer reads, and nothing else. -/

namespace Misfit

namespace Failure

/-- The same failure under another label. -/
def withLabel (label : String) : Failure → Failure
  | .unknownForm _ hint => .unknownForm label hint
  | .noExplainer _ hint category => .noExplainer label hint category
  | .unresolvedName _ name => .unresolvedName label name
  | .alreadyFits _ value hint => .alreadyFits label value hint

end Failure

/-- An obstacle leads to one failure, whatever the label that it is told under. -/
theorem Obstacle.failure_withLabel (obstacle : Obstacle) (classes : Hierarchy)
    (label other : String) :
    (obstacle.failure classes label).withLabel other = obstacle.failure classes other := by
  -- The label stands beside what is told of the obstacle.
  cases obstacle <;> rfl

namespace Query

/-- The answer to a query under another label is the same, or the same failure under that label. -/
theorem cause_withLabel (query : Query) (label : String) :
    ({ query with label } : Query).cause = query.cause.mapError (Failure.withLabel label) := by
  -- The check behind both answers is the same, and only its obstacle is told of with the label.
  rw [cause_eq_word, cause_eq_word]
  cases query.hint.check query.classes query.value with
  | fits => rfl
  | misfit reason => rfl
  | blocked obstacle =>
    exact congrArg Except.error (obstacle.failure_withLabel query.classes _ label).symm

/-- The indent and the layout of a query change no verdict: under others the value still fits, or
still does not, or the failure is the very same. The label changes no cause, and of a failure only
the label that it carries. -/
theorem verdict_of_presentation (query : Query) (indent label : String) (style : Style) :
    ({ query with indent, style } : Query).verdict = query.verdict ∧
      ({ query with label } : Query).cause = query.cause.mapError (Failure.withLabel label) := by
  refine ⟨?_, query.cause_withLabel label⟩
  -- Only the words of a cause depend on how it is laid out, and the verdict leaves them out.
  rw [verdict_eq, verdict_eq]

end Query

end Misfit
