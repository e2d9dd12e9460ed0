import Misfit.Proofs.Hint.Accepts
import Misfit.Proofs.Query.Answer

/-! A union is settled by the first of its members that gives no cause. -/

namespace Misfit

namespace Query

/-- Among the given hints, one leads to a failure and all before it are asked in vain: they ask
something of the value and give causes. -/
def FailsFirst (query : Query) (hints : List Hint) (failure : Failure) : Prop :=
  ∃ ahead blocked behind, hints = ahead ++ blocked :: behind ∧
    (∀ hint ∈ ahead, hint.isVacuous = false ∧
      ∃ text, (query.about hint).cause = .ok (some text)) ∧
    (query.about blocked).cause = .error failure

/-- The finding on a hint as a member of a union, in which a vacuous one fits unchecked. -/
def findMember (query : Query) (hint : Hint) : Finding Cause :=
  Finding.unlessVacuous hint fun _ => hint.check query.classes query.value

/-- A vacuous hint leads to no failure. -/
theorem check_ne_blocked_of_isVacuous {classes : Hierarchy} {hint : Hint} {value : Value}
    (vacuous : hint.isVacuous = true) (obstacle : Obstacle) :
    hint.check classes value ≠ .blocked obstacle := by
  -- A plain class is decided one way or the other, and the hint for any value always fits.
  cases hint with
  | any => simp [Hint.check]
  | instanceOf ref =>
    rw [Hint.check]
    exact Hint.checkInstance_ne_blocked obstacle
  | _ => simp [Hint.isVacuous, Hint.isInstanceOf] at vacuous

/-- A failure comes first among hints exactly if it blocks them as alternatives. -/
theorem failsFirst_iff {query : Query} {hints : List Hint} {failure : Failure} :
    query.FailsFirst hints failure ↔
      ∃ obstacle, Finding.anyOf (hints.map query.findMember) = .blocked obstacle ∧
        obstacle.failure query.classes query.label = failure := by
  -- As members, hints that ask something are found to be what they are when asked about alone.
  constructor
  · rintro ⟨ahead, blocked, behind, split, misfits, failing⟩
    obtain ⟨obstacle, stopped, rfl⟩ := cause_eq_error_iff.mp failing
    refine ⟨obstacle, Finding.anyOf_eq_blocked.mpr
      ⟨ahead, blocked, behind, split, ?_, ?_⟩, rfl⟩
    · intro hint listed
      obtain ⟨asks, text, caused⟩ := misfits hint listed
      obtain ⟨reason, misfit, _⟩ := cause_eq_some_iff.mp caused
      exact ⟨reason, Finding.unlessVacuous_eq_misfit.mpr ⟨asks, misfit⟩⟩
    · -- What leads to a failure cannot have been left out.
      have asks : blocked.isVacuous = false := by
        apply Bool.eq_false_iff.mpr
        intro vacuous
        exact check_ne_blocked_of_isVacuous vacuous obstacle stopped
      exact Finding.unlessVacuous_eq_blocked.mpr ⟨asks, stopped⟩
  · rintro ⟨obstacle, alternatives, rfl⟩
    obtain ⟨ahead, blocked, behind, split, misfits, stopped⟩ :=
      Finding.anyOf_eq_blocked.mp alternatives
    refine ⟨ahead, blocked, behind, split, ?_, ?_⟩
    · -- A member that was passed over asks something, and gives a cause when asked about alone.
      intro hint listed
      obtain ⟨reason, misfit⟩ := misfits hint listed
      obtain ⟨asks, checked⟩ := Finding.unlessVacuous_eq_misfit.mp misfit
      exact ⟨asks, _, cause_eq_some_iff.mpr ⟨reason, checked, rfl⟩⟩
    · have checked := (Finding.unlessVacuous_eq_blocked.mp stopped).2
      exact cause_eq_error_iff.mpr ⟨obstacle, checked, rfl⟩

/-- A union with a member that the value fits is settled by the members before that one. -/
theorem cause_union_eq (query : Query) {member : Hint} (before after : List Hint)
    (fitting : (query.about member).cause = .ok none) :
    (query.about (.union (before ++ member :: after))).cause =
      match Finding.anyOf (before.map query.findMember) with
      | .blocked obstacle => .error (obstacle.failure query.classes query.label)
      | _ => .ok none := by
  -- The alternatives of the union are the findings under its members, in their order.
  have fits : query.findMember member = .fits := by
    have checked : member.check query.classes query.value = .fits := cause_eq_none_iff.mp fitting
    simp [findMember, Finding.unlessVacuous, checked]
  have alternatives : (Hint.union (before ++ member :: after)).check query.classes query.value =
      (Finding.anyOf ((before ++ member :: after).map query.findMember)).map
        (Cause.ofMembers query.value (before ++ member :: after)) := by
    rw [Hint.check, Hint.checkMembers_eq_anyOf]
    rfl
  -- What comes behind the fitting member is not looked at.
  rw [Finding.anyOf_of_fits fits] at alternatives
  have worded : (query.about (.union (before ++ member :: after))).cause = query.word
      ((Hint.union (before ++ member :: after)).check query.classes query.value) :=
    cause_eq_word _
  rw [worded, alternatives]
  cases Finding.anyOf (before.map query.findMember) <;> rfl

/-- A member that the value fits keeps its union from giving a cause, wherever it stands. The value
fits the union whatever comes after that member, unless a failure comes first before it, and then
the union leads to that failure. The hint for any value is such a member, and so is the class of
`None` where that is the value. -/
theorem cause_union_of_fitting_member (query : Query) :
    (∀ before member after, (query.about member).cause = .ok none →
      let union : Hint := .union (before ++ member :: after)
      ((query.about union).cause = .ok none ↔ ∀ failure, ¬query.FailsFirst before failure) ∧
        ∀ failure, (query.about union).cause = .error failure ↔
          query.FailsFirst before failure) ∧
      (query.about .any).cause = .ok none ∧
      (query.value = .none → (query.about .nothing).cause = .ok none) := by
  -- The first part is about any member that fits, and the others are two such members.
  refine ⟨?_, ?_, ?_⟩
  · intro before member after fitting union
    -- Both answers are read off the finding on the members before the fitting one.
    rw [query.cause_union_eq before after fitting]
    simp only [failsFirst_iff]
    cases Finding.anyOf (before.map query.findMember) with
    | fits => simp
    | misfit reasons => simp
    | blocked obstacle =>
      refine ⟨?_, fun failure => by simp⟩
      constructor
      · intro answered
        cases answered
      · intro none
        exact absurd ⟨obstacle, rfl, rfl⟩ (none _)
  · exact cause_eq_none_iff.mpr (by rw [about, change]; rfl)
  · intro none
    apply cause_eq_none_iff.mpr
    rw [about, change, none]
    -- Every class descends from itself.
    have class_ : query.classes.derives .noneType .noneType = true := by
      simp [Hierarchy.derives]
    simp [Hint.nothing, Hint.check, Hierarchy.checkInstance, Value.classRef, class_]

/-- The value `None` fits the second member, behind a plain class and ahead of a hint of unknown
form. -/
theorem cause_union_of_fitting_nothing :
    let query : Query := ⟨.none, .any, "", "f() parameter x", .initial, {}⟩
    let before : List Hint := [.instanceOf .int]
    let after : List Hint := [.foreign "<not a hint>"]
    let union : Hint := .union (before ++ .nothing :: after)
    query.value = .none ∧ (query.about .nothing).cause = .ok none ∧
      ((query.about union).cause = .ok none ↔ ∀ failure, ¬query.FailsFirst before failure) ∧
      ∀ failure, (query.about union).cause = .error failure ↔
        query.FailsFirst before failure := by
  -- The value fits the member for it, so only what comes before that member matters.
  intro query before after union
  obtain ⟨members, _, nothing⟩ := cause_union_of_fitting_member query
  have fitting := nothing rfl
  exact ⟨rfl, fitting, members before .nothing after fitting⟩

/-- A hint of unknown form ahead of the hint for any value makes their union fail, although the
second of them accepts everything. -/
theorem cause_union_foreign_any :
    let query : Query := ⟨.int 1, .any, "", "f() parameter x", .initial, {}⟩
    (query.about .any).cause = .ok none ∧
      (query.about (.union [.foreign "<not a hint>", .any])).cause =
        .error (.unknownForm "f() parameter x" "<not a hint>") := by
  -- The first member is asked about first, and it is answered with a failure.
  decide +kernel

end Query

end Misfit
