import Misfit.Proofs.Hint.Equality
import Misfit.Proofs.Query.Answer

/-! Equal values and equal hints lead to answers of one kind. -/

namespace Misfit

namespace Hint

/-- Two visits look at equal values under one hint, both inside of a whole or both at the whole. -/
def Visit.EqualValue (visit other : Visit) : Prop :=
  visit.step.isSome = other.step.isSome ∧ visit.hint = other.hint ∧
    visit.value.equal other.value = true

/-- Items that are related one by one stay so when they are numbered. -/
theorem forall₂_zipIdx {α : Type} {related : α → α → Prop} {items items' : List α}
    (each : List.Forall₂ related items items') :
    List.Forall₂ (fun pair pair' => related pair.1 pair'.1 ∧ pair.2 = pair'.2)
      items.zipIdx items'.zipIdx := by
  -- As many items are paired with the same numbers.
  rw [List.zipIdx_eq_zip_range', List.zipIdx_eq_zip_range', each.length_eq]
  exact forall₂_zip_same each _

variable {value other : Value} {ε : Type} {word : Obstacle → ε}

/-- In equal values a check visits equal values, one by one, under the same hints. -/
theorem visits_of_equal_value (same : value.equal other = true) (classes : Hierarchy)
    (hint : Hint) :
    List.Forall₂ Visit.EqualValue (hint.visits classes value) (hint.visits classes other) := by
  -- What can be seen of the two values is equal, and is numbered and paired with hints alike.
  have items := Value.forall₂_getD (Value.items?_of_equal same)
  have numbered := forall₂_zipIdx items
  cases hint with
  | collection form item | tupleOf item =>
    simp only [visits, List.forall₂_map_left_iff, List.forall₂_map_right_iff]
    exact numbered.imp fun _ _ both => ⟨rfl, rfl, both.1⟩
  | tuple hints =>
    simp only [visits, items.length_eq]
    split
    · rw [List.forall₂_map_left_iff, List.forall₂_map_right_iff]
      -- There are as many items in both, each beside the same hint.
      have paired := forall₂_zip (List.forall₂_same.mpr fun hint (_ : hint ∈ hints) => rfl) numbered
      exact paired.imp fun _ _ both => ⟨rfl, both.1, both.2.1⟩
    · exact .nil
  | mapping form key stored =>
    have entries := Value.forall₂_getD (Value.pairs?_of_equal same)
    -- Entries stand in one order in both, each with an equal key and an equal value.
    refine List.rel_flatMap entries ?_
    intro entry entry' both
    exact .cons ⟨rfl, rfl, both.1⟩ (.cons ⟨rfl, rfl, both.2⟩ .nil)
  | generic origin bases => exact forall₂_map_same bases fun _ => ⟨rfl, rfl, same⟩
  | forwardRef name =>
    simp only [visits]
    split
    · exact .cons ⟨rfl, rfl, same⟩ .nil
    · exact .nil
  | _ => exact .nil

/-- A class is asked of equal values with one verdict. -/
theorem verdict_checkInstance_of_equal (same : value.equal other = true) (classes : Hierarchy)
    (ref : ClassRef) :
    (classes.checkInstance ref value).verdict word =
      (classes.checkInstance ref other).verdict word := by
  -- Nothing but the class of a value is looked at, and equal values have one class.
  have class_ := (Value.equal_iff.mp same).1.classRef_eq
  simp only [Hierarchy.checkInstance, class_]
  split <;> rfl

/-- A hint asks the same of equal values themselves. -/
theorem verdict_checkItself_of_equal_value (same : value.equal other = true)
    (classes : Hierarchy) (hint : Hint) :
    (hint.checkItself classes value).verdict word =
      (hint.checkItself classes other).verdict word := by
  -- Equal values have one class, as many items, and are literally the same values.
  cases hint with
  | instanceOf | collection | tupleOf | mapping | generic =>
    exact verdict_checkInstance_of_equal same classes _
  | tuple hints =>
    simp only [checkItself]
    apply Finding.verdict_andThen_congr (verdict_checkInstance_of_equal same classes _)
    -- Causes tell of the two values, but there are as many items in both.
    have items := Value.items?_of_equal same
    generalize value.items? = visible, other.items? = visible' at items ⊢
    cases items with
    | none => rfl
    | some each =>
      simp only [each.length_eq]
      split
      · rfl
      · split <;> rfl
  | subclassOf ref =>
    -- A class is equal to itself only, and no other value stands for a class.
    cases (Value.equal_iff.mp same).1 <;> rfl
  | literal values =>
    have named : value.isLiterally = other.isLiterally := by
      funext one
      rw [Value.isLiterally_comm, Value.isLiterally_congr same, Value.isLiterally_comm]
    simp only [checkItself, Value.checkLiteral, named]
    split <;> rfl
  | _ => rfl

/-- Visits of equal values under one hint have one verdict, if the checks of the values do. -/
theorem Visit.EqualValue.verdict_check {classes : Hierarchy} {visit visit' : Visit}
    (equal : visit.EqualValue visit')
    (verdict : (visit.hint.check classes visit.value).verdict word =
      (visit.hint.check classes visit'.value).verdict word) (whole whole' : Value) :
    (visit.check classes whole).verdict word = (visit'.check classes whole').verdict word := by
  -- The ways into the two values are told differently, and lead to parts that are left out alike.
  obtain ⟨step, hint, part⟩ := visit
  obtain ⟨step', hint', part'⟩ := visit'
  obtain ⟨inside, rfl, _⟩ := equal
  cases step with
  | none =>
    cases step' with
    | none => exact verdict
    | some _ => cases inside
  | some step =>
    cases step' with
    | none => cases inside
    | some step' =>
      -- The step is put into words only.
      simp only [Visit.check, Finding.inside]
      apply Finding.verdict_unlessVacuous_congr rfl
      rwa [Finding.verdict_map, Finding.verdict_map]

/-- Checks of equal values under one hint have one verdict. -/
theorem verdict_check_of_equal_value (same : value.equal other = true) (classes : Hierarchy)
    (hint : Hint) :
    (hint.check classes value).verdict word = (hint.check classes other).verdict word := by
  -- Members are asked of equal values, and equal values are visited, in step.
  induction hint, value using visits_induction classes generalizing other with
  | step hint value visited members =>
    rcases hint.union_or_not with ⟨alternatives, rfl⟩ | notUnion
    · simp only [check, checkMembers_eq_anyOf, Finding.verdict_map]
      apply Finding.verdict_anyOf_congr
      rw [List.forall₂_map_left_iff, List.forall₂_map_right_iff, List.forall₂_same]
      intro member listed
      have verdict := members alternatives rfl member listed same
      exact Finding.verdict_unlessVacuous_congr rfl verdict
    · rw [check_eq_visits notUnion, check_eq_visits notUnion]
      apply Finding.verdict_andThen_congr (verdict_checkItself_of_equal_value same classes hint)
      -- Visits come in pairs, and each pair has one verdict by the induction on visits.
      apply Finding.verdict_firstOf_congr
      have visits := visits_of_equal_value same classes hint
      have each := (List.forall₂_and_left _ _).mpr ⟨visited, visits⟩
      refine each.imp ?_
      rintro visit visit' ⟨congr, equal⟩
      exact equal.verdict_check (congr equal.2.2) value other

end Hint

namespace Query

/-- Equal values under equal hints lead to answers of one kind: neither value has a cause, or both
have one, or there are failures of one kind, with the caller's label on both. Only texts can differ,
as equal numbers need not be written alike. -/
theorem cause_of_equal (query : Query) {value : Value} {hint : Hint}
    (values : query.value.equal value = true) (hints : query.hint.equal hint = true) :
    let other : Query := { query with value, hint }
    (query.cause = .ok none ∧ other.cause = .ok none) ∨
      (∃ text text', query.cause = .ok (some text) ∧ other.cause = .ok (some text')) ∨
      ∃ failure failure', query.cause = .error failure ∧ other.cause = .error failure' ∧
        failure.kind = failure'.kind ∧ failure.label = failure'.label := by
  intro other
  -- First the hint gives way to the equal one, under the same value, and then the value does.
  have verdicts : (query.hint.check query.classes query.value).verdict Obstacle.kind =
      (hint.check query.classes value).verdict Obstacle.kind :=
    (Hint.verdict_check_of_equal hints query.classes query.value).trans
      (Hint.verdict_check_of_equal_value values query.classes hint)
  cases found : query.hint.check query.classes query.value with
  | fits =>
    rw [found] at verdicts
    have fits := Finding.verdict_eq_fits.mp verdicts.symm
    exact .inl ⟨cause_eq_none_iff.mpr found, cause_eq_none_iff.mpr fits⟩
  | misfit reason =>
    rw [found] at verdicts
    obtain ⟨reason', misfit⟩ := Finding.verdict_eq_misfit.mp verdicts.symm
    exact .inr (.inl ⟨_, _, cause_eq_some_iff.mpr ⟨reason, found, rfl⟩,
      cause_eq_some_iff.mpr ⟨reason', misfit, rfl⟩⟩)
  | blocked obstacle =>
    rw [found] at verdicts
    obtain ⟨obstacle', blocked, kind⟩ := Finding.verdict_eq_blocked.mp verdicts.symm
    -- Failures carry the kind of their obstacle and the label of the query.
    obtain ⟨kind_, label⟩ := obstacle.kind_failure query.classes query.label
    obtain ⟨kind', label'⟩ := obstacle'.kind_failure query.classes query.label
    refine .inr (.inr ⟨_, _, cause_eq_error_iff.mpr ⟨obstacle, found, rfl⟩,
      cause_eq_error_iff.mpr ⟨obstacle', blocked, rfl⟩, ?_, label.trans label'.symm⟩)
    rw [kind_, kind', kind]

/-- The two zeros are equal as keys, as items, and as the values that literals name. Each of the two
values below fits the other's literals up to an item that is no zero, and the causes differ in no
more than the signs that they show. -/
theorem cause_of_equal_nested_zeros :
    let zero : Value := .float ⟨0⟩
    let negative : Value := .float ⟨0x8000000000000000⟩
    let value (key : Value) : Value :=
      .container .list [.dict [(key, .container .tuple [key, .int 1])]]
    let hint (named : Value) : Hint :=
      .collection .list (.mapping .dict (.literal [named]) (.tuple [.any, .literal [named, .int 2]]))
    let query : Query := ⟨value zero, hint negative, "", "f() parameter x", .initial, {}⟩
    let other : Query := { query with value := value negative, hint := hint zero }
    query.value.equal other.value = true ∧ query.hint.equal other.hint = true ∧
      query.cause ≠ other.cause ∧
      ((query.cause = .ok none ∧ other.cause = .ok none) ∨
        (∃ text text', query.cause = .ok (some text) ∧ other.cause = .ok (some text')) ∨
        ∃ failure failure', query.cause = .error failure ∧ other.cause = .error failure' ∧
          failure.kind = failure'.kind ∧ failure.label = failure'.label) := by
  -- Zeros of either sign are equal, though their texts are not.
  intro zero negative value hint query other
  have values : query.value.equal other.value = true := by decide
  have hints : query.hint.equal other.hint = true := by decide
  exact ⟨values, hints, by decide +kernel, cause_of_equal query values hints⟩

end Query

end Misfit
