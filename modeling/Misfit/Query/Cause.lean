import Misfit.Query.Explain

/-! The answer to a query, given by the explainer that looks after its hint. -/

namespace Misfit

namespace Query

/-- The cause of the misfit, nothing if the value fits, or why that cannot be told. The explainer
has the queries that it makes in turn answered in the same way. -/
def cause (query : Query) : Answer :=
  match query.explainer with
  | .error failure => .error failure
  | .ok explainer => explainer.explain query fun inner _ => inner.cause
termination_by query.hint.depth

/-- The answer that one explainer gives, whether or not the hint is one of its own. -/
def causeBy (query : Query) (explainer : Explainer) : Answer :=
  explainer.explain query fun inner _ => inner.cause

end Query

end Misfit
