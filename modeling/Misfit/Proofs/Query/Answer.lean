import Misfit.Proofs.Finding.Verdict
import Misfit.Proofs.Query.Refinement

/-! What the answer to a query tells about the check behind it. -/

namespace Misfit

namespace Query

/-- There is no cause exactly if the value fits. -/
theorem cause_eq_none_iff {query : Query} :
    query.cause = .ok none ↔ query.hint.check query.classes query.value = .fits := by
  -- Each outcome of a check has an answer of its own kind.
  rw [cause_eq_word]
  cases query.hint.check query.classes query.value <;> simp [word]

/-- A cause is the wording of a misfit. -/
theorem cause_eq_some_iff {query : Query} {text : String} :
    query.cause = .ok (some text) ↔
      ∃ reason, query.hint.check query.classes query.value = .misfit reason ∧
        reason.text query.classes query.style query.indent = text := by
  -- A query is answered by the words for what a check finds.
  rw [cause_eq_word]
  cases query.hint.check query.classes query.value <;> simp [word]

/-- There is a cause exactly if the value is a misfit. -/
theorem exists_cause_iff {query : Query} :
    (∃ text, query.cause = .ok (some text)) ↔
      ∃ reason, query.hint.check query.classes query.value = .misfit reason := by
  -- Every reason has its wording.
  simp only [cause_eq_some_iff]
  constructor
  · rintro ⟨_, reason, misfit, _⟩
    exact ⟨reason, misfit⟩
  · rintro ⟨reason, misfit⟩
    exact ⟨_, reason, misfit, rfl⟩

/-- A failure is the wording of an obstacle. -/
theorem cause_eq_error_iff {query : Query} {failure : Failure} :
    query.cause = .error failure ↔
      ∃ obstacle, query.hint.check query.classes query.value = .blocked obstacle ∧
        obstacle.failure query.classes query.label = failure := by
  -- A query is answered by the words for what a check finds.
  rw [cause_eq_word]
  cases query.hint.check query.classes query.value <;> simp [word]

/-- Whether the value fits, or the failure that keeps this from being told: the answer without the
words of a cause. -/
def verdict (query : Query) : Except Failure Bool := query.cause.map Option.isNone

/-- The verdict of a query is that of the check behind its answer. -/
theorem verdict_eq (query : Query) :
    query.verdict = (query.hint.check query.classes query.value).verdict
      (Obstacle.failure query.classes query.label) := by
  -- Words for a finding keep its outcome.
  rw [verdict, cause_eq_word]
  cases query.hint.check query.classes query.value <;> rfl

end Query

end Misfit
