import Mathlib.Data.List.Forall2
import Misfit.Proofs.Query.Fault

/-! What a misfit comes from: the value itself, one visited pair, or every member of a union. -/

namespace Misfit

namespace Hint

/-- A value does not fit a union exactly if each member asks something of it that it does not fit,
and the causes under the members are put together. -/
theorem check_union_eq_misfit {classes : Hierarchy} {members : List Hint} {value : Value}
    {reason : Cause} :
    (Hint.union members).check classes value = .misfit reason ↔
      ∃ causes, List.Forall₂ (fun member cause => member.isVacuous = false ∧
          member.check classes value = .misfit cause) members causes ∧
        Cause.ofMembers value members causes = reason := by
  -- Members are tried in turn, so a union fails for as many causes as it has members.
  rw [check, checkMembers_eq_anyOf, Finding.map_eq_misfit]
  -- The list of findings is a list of misfits exactly if they correspond one by one.
  have one_by_one : ∀ causes : List Cause,
      (Finding.anyOf (members.map fun member => Finding.unlessVacuous member fun _ =>
          member.check classes value) = .misfit causes ↔
        List.Forall₂ (fun member cause => member.isVacuous = false ∧
          member.check classes value = .misfit cause) members causes) := by
    intro causes
    rw [Finding.anyOf_eq_misfit, ← List.forall₂_eq_eq_eq, List.forall₂_map_left_iff,
      List.forall₂_map_right_iff]
    simp only [Finding.unlessVacuous_eq_misfit]
  exact exists_congr fun causes => and_congr_left' (one_by_one causes)

/-- What holds of every mismatch at a value itself, is handed on from a visited pair to the whole,
and is gathered from all members of a union, holds of the reason of every misfit. -/
theorem misfit_induction (classes : Hierarchy) {motive : Hint → Value → Cause → Prop}
    (mismatch : ∀ hint value expected, motive hint value (.mismatch value expected))
    (visit : ∀ hint value, ∀ visit ∈ hint.visits classes value, ∀ inner,
      motive visit.hint visit.value inner → motive hint value (visit.reason value inner))
    (union : ∀ members value causes, causes.length = members.length →
      (∀ cause ∈ causes, ∃ member ∈ members, motive member value cause) →
      motive (.union members) value (.ofMembers value members causes))
    (hint : Hint) (value : Value) (reason : Cause)
    (misfit : hint.check classes value = .misfit reason) : motive hint value reason := by
  -- The induction is that over visited pairs and members, read from the end of the check.
  induction hint, value using visits_induction classes generalizing reason with
  | step hint value visited offered =>
    rcases hint.union_or_not with ⟨members, rfl⟩ | notUnion
    · obtain ⟨causes, each, rfl⟩ := check_union_eq_misfit.mp misfit
      refine union members value causes each.length_eq.symm ?_
      intro cause listed
      -- The member at the same place is the one under which the cause was found.
      obtain ⟨place, bound, rfl⟩ := List.mem_iff_getElem.mp listed
      have within : place < members.length := each.length_eq ▸ bound
      have member := List.getElem_mem within
      obtain ⟨_, found⟩ := each.get within bound
      exact ⟨members[place], member, offered members rfl _ member _ found⟩
    · rw [check_eq_visits notUnion, Finding.andThen_eq_misfit] at misfit
      rcases misfit with itself | ⟨_, searched⟩
      · -- At the value itself every misfit is a mismatch, whatever the words for it.
        let query : Query := ⟨value, hint, "", "", classes, {}⟩
        have fault : ∃ expected, reason = .mismatch value expected ∧ query.Fault hint value _ :=
          Query.fault_of_checkItself itself
        obtain ⟨expected, rfl, _⟩ := fault
        exact mismatch hint value expected
      · -- The first visit that is no fit is where the cause was found.
        obtain ⟨before, taken, after, split, _, found⟩ := Finding.firstOf_eq_misfit.mp searched
        obtain ⟨_, inner, checked, rfl⟩ := Visit.check_eq_misfit.mp found
        have member : taken ∈ hint.visits classes value := by simp [split]
        exact visit hint value taken member inner (visited taken member inner checked)

end Hint

end Misfit
