import Misfit.Proofs.Hint.Accepts
import Misfit.Proofs.Query.Answer

/-! Where failures come from: every one is due to a hint that is part of the one asked about. -/

namespace Misfit

namespace Hint

/-- The parts of a hint under which values are checked; under those of a function none are. -/
def checkedParts : Hint → List Hint
  | .callable _ _ => []
  | hint => hint.parts

/-- A visited hint is a part under which values are checked, or the class that a name stands for. -/
theorem checkedParts_of_mem_visits {classes : Hierarchy} {hint : Hint} {value : Value}
    {visit : Visit} (member : visit ∈ hint.visits classes value) :
    visit.hint ∈ hint.checkedParts ∨ ∃ ref, visit.hint = .instanceOf ref := by
  -- A function has no visits, and every other hint has all of its parts checked.
  cases hint with
  | callable parameters result => simp [visits] at member
  | _ => exact hint_of_mem_visits member

/-- A visit is blocked only where the check of its pair is. -/
theorem Visit.blocked_of_check {classes : Hierarchy} {whole : Value} {visit : Visit}
    {obstacle : Obstacle} (blocked : visit.check classes whole = .blocked obstacle) :
    visit.hint.check classes visit.value = .blocked obstacle := by
  -- A visit hands on what the check of its pair finds, if it is made.
  by_cases skipped : visit.Skipped
  · -- A visit that is left out finds a fit.
    rw [check_of_skipped skipped] at blocked
    cases blocked
  · rwa [check_of_not_skipped skipped, Finding.map_eq_blocked] at blocked

end Hint

/-- The forms of hints for which an explainer is made. -/
inductive Explainer.Handles : Explainer → Hint → Prop where
  | any : Handles .any .any
  | plainClass {ref : ClassRef} : Handles .plainClass (.instanceOf ref)
  | forwardRef {name : String} : Handles .forwardRef (.forwardRef name)
  | generic {origin : ClassRef} {bases : List Hint} : Handles .generic (.generic origin bases)
  | literal {values : List Value} : Handles .literal (.literal values)
  | mapping {form : MappingForm} {key value : Hint} : Handles .mapping (.mapping form key value)
  | collection {form : CollectionForm} {item : Hint} : Handles .collection (.collection form item)
  | subclass {ref : ClassRef} : Handles .subclass (.subclassOf ref)
  | tuple {items : List Hint} : Handles .tuple (.tuple items)
  | tupleOf {item : Hint} : Handles .tuple (.tupleOf item)
  | union {members : List Hint} : Handles .union (.union members)

/-- A hint goes to an explainer exactly if it is of a form for which that one is made. -/
theorem Explainer.handles_iff {explainer : Explainer} {hint : Hint} :
    explainer.Handles hint ↔ hint.explainer? = some explainer := by
  constructor
  · intro handles
    cases handles <;> rfl
  · intro found
    -- Three forms of hints go to no explainer, and each of the others to one.
    cases hint with
    | callable | typeVar | foreign => cases found
    | _ =>
      cases found
      constructor

/-- The message of a failure is its label with more behind it. -/
theorem Failure.message_eq_label_append (failure : Failure) :
    ∃ rest, failure.message = failure.label ++ rest := by
  -- The texts behind the label are joined to it one after the other.
  cases failure <;> simp [message, label, String.append_assoc]

namespace Query

/-- A hint to which a failure of the query is due. -/
inductive Culprit (query : Query) : Failure → Hint → Prop where
  | foreign {text : String} :
      Culprit query (.unknownForm query.label ((Hint.foreign text).text query.classes))
        (.foreign text)
  | callable {parameters : List Hint} {result : Hint} {category : Category}
      (form : (Hint.callable parameters result).category? = some category) :
      Culprit query
        (.noExplainer query.label ((Hint.callable parameters result).text query.classes) category)
        (.callable parameters result)
  | typeVar {name : String} {category : Category}
      (form : (Hint.typeVar name).category? = some category) :
      Culprit query (.noExplainer query.label ((Hint.typeVar name).text query.classes) category)
        (.typeVar name)
  | forwardRef {name : String} (unknown : query.classes.latest? name = none) :
      Culprit query (.unresolvedName query.label name) (.forwardRef name)

/-- A hint that blocks a check at the value itself is one to which the failure is due. -/
theorem culprit_of_checkItself {query : Query} {hint : Hint} {value : Value} {obstacle : Obstacle}
    (blocked : hint.checkItself query.classes value = .blocked obstacle) :
    query.Culprit (obstacle.failure query.classes query.label) hint := by
  -- Explained hints block nothing, and each of the other forms meets an obstacle of its own.
  by_cases explained : hint.Explained query.classes
  · exact absurd blocked (explained.checkItself_ne_blocked value obstacle)
  · cases hint with
    | callable | typeVar =>
      cases blocked
      constructor
      rfl
    | foreign text =>
      cases blocked
      exact .foreign
    | forwardRef name =>
      -- A name is not explained if no class has it.
      have unknown : query.classes.latest? name = none := by
        simpa [Hint.Explained] using explained
      simp only [Hint.checkItself, unknown] at blocked
      cases blocked
      exact .forwardRef unknown
    | _ => exact absurd trivial explained

/-- A hint that blocks a check contains one to which the failure is due. -/
theorem culprit_of_check {query : Query} {hint : Hint} {value : Value} {obstacle : Obstacle}
    (blocked : hint.check query.classes value = .blocked obstacle) :
    Somewhere Hint.checkedParts (query.Culprit (obstacle.failure query.classes query.label))
      hint := by
  -- An obstacle is passed on unchanged from the pair where it is met.
  induction hint, value using Hint.visits_induction query.classes with
  | step hint value visited members =>
    rcases hint.union_or_not with ⟨alternatives, rfl⟩ | notUnion
    · rw [Hint.check, Hint.checkMembers_eq_anyOf, Finding.map_eq_blocked] at blocked
      -- It is the obstacle of one of the members that blocks the union.
      obtain ⟨before, member, after, split, _, blocked⟩ := Finding.anyOf_eq_blocked.mp blocked
      have listed : member ∈ alternatives := by simp [split]
      have blocked := (Finding.unlessVacuous_eq_blocked.mp blocked).2
      exact .inside listed (members alternatives rfl member listed blocked)
    · rw [Hint.check_eq_visits notUnion] at blocked
      by_cases itself : hint.checkItself query.classes value = .fits
      · -- The first visit that does not find a fit passes on the obstacle that it meets.
        rw [itself, Finding.fits_andThen, Finding.firstOf_eq_of_ne_fits (by simp)] at blocked
        obtain ⟨before, visit, after, split, _, blocked⟩ := blocked
        have listed : visit ∈ hint.visits query.classes value := by simp [split]
        have blocked := Hint.Visit.blocked_of_check blocked
        rcases Hint.checkedParts_of_mem_visits listed with part | ⟨ref, named⟩
        · exact .inside part (visited visit listed blocked)
        · rw [named, Hint.check] at blocked
          exact absurd blocked (Hint.checkInstance_ne_blocked obstacle)
      · rw [Finding.andThen_of_ne_fits itself] at blocked
        exact .here (culprit_of_checkItself blocked)

/-- A failure carries the label of its query, and its message starts with that. It never says that
the value fits after all, and is due to a hint within the one asked about: one of unknown form, a
function or a variable, or a name that no class has. A hint is given to an explainer exactly if that
one is made for its form, and then it is not refused. -/
theorem failure_has_culprit (query : Query) :
    (∀ failure, query.cause = .error failure →
      failure.label = query.label ∧ (∃ rest, failure.message = query.label ++ rest) ∧
        (∀ label value hint, failure ≠ .alreadyFits label value hint) ∧
        Somewhere Hint.checkedParts (query.Culprit failure) query.hint) ∧
      ∀ explainer, (query.hint.explainer? = some explainer ↔ explainer.Handles query.hint) ∧
        (explainer.Handles query.hint → query.causeBy explainer = query.cause) := by
  refine ⟨?_, ?_⟩
  · intro failure failed
    obtain ⟨obstacle, blocked, rfl⟩ := cause_eq_error_iff.mp failed
    have culprit := culprit_of_check blocked
    have label : (obstacle.failure query.classes query.label).label = query.label := by
      cases obstacle <;> rfl
    obtain ⟨rest, message⟩ := (obstacle.failure query.classes query.label).message_eq_label_append
    refine ⟨label, ⟨rest, by rw [message, label]⟩, ?_, culprit⟩
    -- No obstacle is that the value fits.
    intro _ value hint
    cases obstacle <;> simp [Obstacle.failure]
  · intro explainer
    -- The explainer that is made for the form of a hint is the one that the hint goes to.
    have own : explainer.Handles query.hint ↔ query.hint.explainer? = some explainer :=
      Explainer.handles_iff
    exact ⟨own.symm, fun handles => causeBy_eq_cause (own.mp handles)⟩

/-- A hint of unknown form, as a member of a union of items of a stored list, is what a query about
the whole mapping fails on. -/
theorem failure_has_culprit_nested_foreign :
    let member : Hint := .union [.instanceOf .int, .foreign "<not a hint>"]
    let hint : Hint := .mapping .dict (.instanceOf .str) (.collection .list member)
    let value : Value := .dict [(.str "a", .container .list [.int 1, .none])]
    let query : Query := ⟨value, hint, "", "f() parameter x", .initial, {}⟩
    let failure : Failure := .unknownForm "f() parameter x" "<not a hint>"
    query.cause = .error failure ∧ failure.label = query.label ∧
      Somewhere Hint.checkedParts (query.Culprit failure) query.hint ∧
      Explainer.mapping.Handles query.hint ∧ query.causeBy .mapping = query.cause := by
  -- The failure comes from far inside, while the hint itself has its explainer.
  intro member hint value query failure
  obtain ⟨provenance, dispatch⟩ := failure_has_culprit query
  have failed : query.cause = .error failure := by decide +kernel
  obtain ⟨label, _, _, culprit⟩ := provenance failure failed
  obtain ⟨_, answer⟩ := dispatch .mapping
  exact ⟨failed, label, culprit, .mapping, answer .mapping⟩

end Query

end Misfit
