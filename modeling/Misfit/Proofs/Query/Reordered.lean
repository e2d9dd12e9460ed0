import Misfit.Proofs.Finding.Compare
import Misfit.Proofs.Hint.Equality
import Misfit.Proofs.Query.Union

/-! Hints in another order: failures come and go with it, and no verdict is turned round. -/

namespace Misfit

namespace Hint

/-- Two hints differ only in the order of the members of unions and of the bases of generic hints,
at any depth. -/
inductive Reordered : Hint → Hint → Prop where
  | same {hint : Hint} : Reordered hint hint
  | inside {hint other : Hint} (form : SameForm hint other)
      (each : List.Forall₂ Reordered hint.parts other.parts) : Reordered hint other
  -- Parts can be reordered themselves before they change their places.
  | members {members between members' : List Hint} (each : List.Forall₂ Reordered members between)
      (order : between.Perm members') : Reordered (.union members) (.union members')
  | bases {origin : ClassRef} {bases between bases' : List Hint}
      (each : List.Forall₂ Reordered bases between) (order : between.Perm bases') :
      Reordered (.generic origin bases) (.generic origin bases')

namespace Reordered

/-- A hint asks something of a value in every order or in none. -/
theorem isVacuous_eq {hint other : Hint} (reordered : hint.Reordered other) :
    hint.isVacuous = other.isVacuous := by
  -- Vacuous hints have no parts that could be reordered.
  cases reordered with
  | inside form _ => exact form.isVacuous_eq
  | _ => rfl

/-- A union stays a union of the same members, each of them reordered. -/
theorem union_counterparts {members : List Hint} {other : Hint}
    (reordered : (Hint.union members).Reordered other) :
    ∃ members', other = .union members' ∧ Counterparts Reordered members members' := by
  -- Members are left alone, reordered inside at their places, or moved as well.
  cases reordered with
  | same => exact ⟨members, rfl, .of_forall₂ (List.forall₂_same.mpr fun _ _ => .same)⟩
  | inside form each =>
    cases form
    exact ⟨_, rfl, .of_forall₂ each⟩
  | members each order => exact ⟨_, rfl, (Counterparts.of_forall₂ each).perm order⟩

/-- What is no union becomes none. -/
theorem ne_union {hint other : Hint} (reordered : hint.Reordered other)
    (notUnion : ∀ members, hint ≠ .union members) (members : List Hint) :
    other ≠ .union members := by
  -- None of the ways to reorder a hint makes a union of something else.
  rintro rfl
  cases reordered with
  | inside form _ => exact form.ne_union notUnion _ rfl
  | _ => exact notUnion _ rfl

/-- In another order a hint asks the same of a value itself. -/
theorem verdict_checkItself {hint other : Hint} (reordered : hint.Reordered other)
    (classes : Hierarchy) (value : Value) :
    (hint.checkItself classes value).verdict Obstacle.kind =
      (other.checkItself classes value).verdict Obstacle.kind := by
  -- Neither a union nor a generic hint looks at its parts for this.
  cases reordered with
  | inside form each => exact verdict_checkItself_of_sameForm form each.length_eq classes value
  | _ => rfl

/-- In another order a hint leads to the same visits, under reordered hints. -/
theorem visits_counterparts {hint other : Hint} (reordered : hint.Reordered other)
    (classes : Hierarchy) (value : Value) :
    Counterparts (Visit.Paired Reordered) (hint.visits classes value)
      (other.visits classes value) := by
  cases reordered with
  | same => exact .of_forall₂ (List.forall₂_same.mpr fun _ _ => ⟨rfl, rfl, .same⟩)
  | inside form each =>
    exact .of_forall₂ (visits_of_sameForm form each (fun _ => .same) classes value)
  | members _ _ => exact .of_forall₂ .nil
  | bases each order =>
    -- The value is visited once under each base, in the order in which the bases stand.
    have matched := (Counterparts.of_forall₂ each).perm order
    exact (matched.imp fun _ _ _ reordered => ⟨rfl, rfl, reordered⟩).map

/-- Checks under a hint in two orders never find a fit and a misfit. -/
theorem compatible_check {hint other : Hint} (reordered : hint.Reordered other)
    (classes : Hierarchy) (value : Value) :
    (hint.check classes value).Compatible (other.check classes value) := by
  -- Members and visits have counterparts in the other order, each compatible by the induction.
  induction hint, value using visits_induction classes generalizing other with
  | step hint value visited members =>
    rcases hint.union_or_not with ⟨alternatives, rfl⟩ | notUnion
    · obtain ⟨alternatives', rfl, matched⟩ := reordered.union_counterparts
      rw [check, check, checkMembers_eq_anyOf, checkMembers_eq_anyOf]
      apply Finding.Compatible.map
      apply Finding.compatible_anyOf
      apply Counterparts.map
      apply matched.imp
      intro member listed member' reordered
      have compatible := members alternatives rfl member listed reordered
      exact compatible.unlessVacuous reordered.isVacuous_eq
    · rw [check_eq_visits notUnion, check_eq_visits (reordered.ne_union notUnion)]
      -- The value itself is asked the same in both orders, and then the counterparts of visits.
      have itself := reordered.verdict_checkItself classes value
      apply (Finding.Compatible.of_verdict_eq itself).andThen
      have matched := reordered.visits_counterparts classes value
      apply Finding.compatible_firstOf
      apply matched.imp
      -- A part is left out in both orders or in none.
      intro visit listed visit' paired
      have compatible := visited visit listed paired.2.2
      exact paired.check Finding.Compatible (fun words same => same.map words words) compatible
        (compatible.unlessVacuous paired.2.2.isVacuous_eq) value

end Reordered

end Hint

namespace Query

/-- A value that fits a hint has no cause under the hint in another order, and a value with a cause
does not fit in another order. Only a failure can take the place of either. -/
theorem cause_reordered (query : Query) {hint other : Hint} (reordered : hint.Reordered other) :
    ¬((query.about hint).cause = .ok none ∧ ∃ text, (query.about other).cause = .ok (some text)) ∧
      ¬((query.about other).cause = .ok none ∧
        ∃ text, (query.about hint).cause = .ok (some text)) := by
  -- A cause words a misfit, and the check in the other order finds no fit then.
  have compatible := reordered.compatible_check query.classes query.value
  constructor
  · rintro ⟨fits, text, caused⟩
    obtain ⟨reason, misfit, _⟩ := cause_eq_some_iff.mp caused
    exact compatible.1 (cause_eq_none_iff.mp fits) reason misfit
  · rintro ⟨fits, text, caused⟩
    obtain ⟨reason, misfit, _⟩ := cause_eq_some_iff.mp caused
    exact compatible.2 (cause_eq_none_iff.mp fits) reason misfit

/-- An item of a list fits no member of a union in one of the bases of a generic hint. With the base
of unknown form in front and the union turned round, there is a failure in place of the cause. -/
theorem cause_reordered_nested_union :
    let value : Value := .container .list [.int 1, .bytes [7]]
    let query : Query := ⟨value, .any, "", "f() parameter x", .initial, {}⟩
    let items : Hint := .collection .list (.union [.instanceOf .int, .instanceOf .str])
    let turned : Hint := .collection .list (.union [.instanceOf .str, .instanceOf .int])
    let hint : Hint := .generic .list [items, .foreign "<not a hint>"]
    let other : Hint := .generic .list [.foreign "<not a hint>", turned]
    hint.Reordered other ∧
      (query.about hint).cause =
        .ok (some "list [1, b'\\x07'] index 1 item bytes b'\\x07' not int or str") ∧
      (query.about other).cause = .error (.unknownForm "f() parameter x" "<not a hint>") ∧
      ¬((query.about other).cause = .ok none ∧
        ∃ text, (query.about hint).cause = .ok (some text)) := by
  -- The bases are turned round, and inside one of them the members of the union.
  intro value query items turned hint other
  have union : (Hint.union [.instanceOf .int, .instanceOf .str]).Reordered
      (.union [.instanceOf .str, .instanceOf .int]) :=
    .members (List.forall₂_same.mpr fun _ _ => .same) (List.Perm.swap _ _ _)
  have list : items.Reordered turned := .inside .collection (.cons union .nil)
  have reordered : hint.Reordered other :=
    .bases (.cons list (.cons .same .nil)) (List.Perm.swap _ _ _)
  obtain ⟨_, never⟩ := cause_reordered query reordered
  exact ⟨reordered, by decide +kernel, by decide +kernel, never⟩

end Query

end Misfit
