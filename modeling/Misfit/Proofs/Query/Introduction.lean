import Misfit.Proofs.Cause.Scope
import Misfit.Proofs.Query.Misfits

/-! A cause introduces the value asked about before it says anything else. -/

namespace Misfit

/-- A cause is about a value: it is told of that value, and so is each alternative that it lists. -/
inductive Cause.About (value : Value) : Cause → Prop where
  | mismatch {expected : Expectation} : About value (.mismatch value expected)
  -- What is told of a part further inside may be about anything.
  | within {step : Step} {inner : Cause} : About value (.within value step inner)
  | alternatives {members : List Hint} {causes : List Cause}
      (each : ∀ cause ∈ causes, About value cause) :
      About value (.alternatives value members causes)

/-- The cause at a visited pair, told of the whole value, is about that value. -/
theorem Hint.Visit.about_reason {visit : Visit} {value : Value} {inner : Cause}
    (stays : visit.step = none → inner.About value) : (visit.reason value inner).About value := by
  -- A step into the value opens the cause with the value that it leaves.
  unfold reason
  cases taken : visit.step with
  | none => exact stays taken
  | some step => exact .within

/-- A cause under a union is about the value if the causes under its members are. -/
theorem Cause.about_ofMembers {value : Value} {members : List Hint} {causes : List Cause}
    (each : ∀ cause ∈ causes, cause.About value) :
    (ofMembers value members causes).About value := by
  -- Besides the given causes only a mismatch of the same value is listed.
  obtain ⟨listed, same, origins⟩ := mem_ofMembers value members causes
  rw [same]
  refine .alternatives ?_
  intro cause member
  rcases origins cause member with given | ⟨refs, rfl, _⟩
  · exact each cause given
  · exact .mismatch

/-- The text of a cause starts with the value that the cause is about, and a space. -/
theorem Cause.About.text {value : Value} {cause : Cause} (about : cause.About value)
    (classes : Hierarchy) (style : Style) (indent : String) :
    ∃ rest, cause.text classes style indent =
      value.describe classes style.excerptLimit ++ " " ++ rest := by
  -- In every wording the introduction of the value comes first, or a whole text that starts so.
  induction about generalizing indent with
  | mismatch => exact ⟨_, by rw [Cause.text]⟩
  | @within step inner =>
    refine ⟨step.text classes style ++ " " ++ inner.text classes style indent, ?_⟩
    simp only [Cause.text, String.append_assoc]
  | @alternatives members causes _ ih =>
    rw [Cause.text, texts_eq_map]
    match causes, ih with
    | [], _ =>
      have words : " not any member of empty union" = " " ++ "not any member of empty union" := rfl
      simp only [List.map_nil, words, ← String.append_assoc]
      exact ⟨_, rfl⟩
    -- An alternative that stands alone takes the place of the whole text.
    | [only], ih => exact ih only (by simp) _
    | first :: second :: rest, _ =>
      have words : " not any member of " = " " ++ "not any member of " := rfl
      -- The headline above several alternatives starts with the introduction.
      simp only [List.map_cons, bulleted, words, String.append_assoc]
      exact ⟨_, rfl⟩

namespace Query

/-- What a check finds to be a misfit is told of the value that was checked. -/
theorem about_of_check {query : Query} {hint : Hint} {value : Value} {reason : Cause}
    (misfit : hint.check query.classes value = .misfit reason) : reason.About value := by
  -- By the induction on misfits: one found at the value, at a visit, or under all members.
  refine Hint.misfit_induction query.classes (motive := fun _ value reason => reason.About value)
    ?_ ?_ ?_ hint value reason misfit
  · intro hint value expected
    -- A mismatch is told of the value itself.
    exact .mismatch
  · -- A cause is handed on as it is only where the same value is looked at under another hint.
    intro hint value visit member inner about
    apply Hint.Visit.about_reason
    intro stays
    rwa [← Hint.value_of_mem_visits_of_step_none member stays]
  · -- Under a union each cause is of a member, which was asked about the same value.
    intro members value causes _ each
    apply Cause.about_ofMembers
    intro cause listed
    obtain ⟨_, _, about⟩ := each cause listed
    exact about

/-- Every cause starts with the introduction of the value asked about, and a space. -/
theorem cause_starts_with_introduction (query : Query) {text : String}
    (caused : query.cause = .ok (some text)) :
    ∃ rest, text = query.introduction ++ " " ++ rest := by
  -- The cause is the text of what the check tells of that value.
  obtain ⟨reason, misfit, rfl⟩ := cause_eq_some_iff.mp caused
  exact (about_of_check misfit).text query.classes query.style query.indent

/-- A cause that a name, a generic hint and a lone member of a union hand on as it is, under a limit
that cuts the value. -/
theorem cause_starts_with_introduction_handed_on :
    let classes := (Hierarchy.initial.define "Stack" [.list]).2
    let base : Hint := .union [.generic .list [.any, .forwardRef "Stack"]]
    let value : Value := .container .list [.str "abc", .none]
    let query : Query :=
      ⟨value, .generic .sequence [base], "", "f() parameter x", classes, { excerptLimit := 7 }⟩
    query.cause = .ok (some "list ['ab... not Stack") ∧ query.introduction = "list ['ab..." ∧
      ∃ rest, "list ['ab... not Stack" = query.introduction ++ " " ++ rest := by
  -- The cause is that of the name, to which all the other hints have handed the value on.
  intro classes base value query
  have caused : query.cause = .ok (some "list ['ab... not Stack") := by decide +kernel
  exact ⟨caused, by decide +kernel, cause_starts_with_introduction query caused⟩

end Query

end Misfit
