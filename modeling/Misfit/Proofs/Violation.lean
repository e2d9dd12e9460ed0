import Misfit.Proofs.Hint.Accepts
import Misfit.Proofs.Query.Introduction
import Misfit.Violation

/-! A call is explained exactly where the hint does not accept the value, by one sentence that shows
the value once in its own words and once in those of the cause. -/

namespace Misfit

/-- What stands before the text of a value where it is introduced: its class, except of `None`. -/
def Value.lead (classes : Hierarchy) : Value → String
  | .none => ""
  | value => classes.nameOf value.classRef ++ " "

/-- A value is introduced by its class and the same text as anywhere else. -/
theorem Value.describe_eq (classes : Hierarchy) (limit : Nat) (value : Value) :
    value.describe classes limit = value.lead classes ++ value.brief classes limit := by
  -- Only the value `None` is introduced without its class.
  cases value <;> simp [describe, lead]

/-- No obstacle is a call whose value fits after all. -/
theorem Obstacle.failure_ne_alreadyFits (classes : Hierarchy) (label : String)
    (obstacle : Obstacle) (label' value hint : String) :
    obstacle.failure classes label ≠ .alreadyFits label' value hint := by
  -- Each obstacle has a failure of its own kind.
  cases obstacle <;> simp [failure]

namespace Violation

/-- The query that stands behind the explanation of a call. -/
def query (classes : Hierarchy) (style : Style) (function : String) (role : Role) (value : Value)
    (hint : Hint) : Query :=
  ⟨value, hint, "", role.label function, classes, style⟩

/-- The sentence about a value in a call, from its label and the texts that are shown. -/
def sentence (label shown hint cause : String) : Role → String
  | .parameter _ =>
    label ++ "=" ++ shown ++ " violates type hint " ++ hint ++ ", as " ++ cause ++ "."
  | .result =>
    label ++ " " ++ shown ++ " violates type hint " ++ hint ++ ", as " ++ cause ++ "."

/-- What the explanation of a call tells: the answer to the query, which starts with the value, and
the sentence around it, which shows the same text of the value. -/
structure Tells (classes : Hierarchy) (style : Style) (function : String) (role : Role)
    (value : Value) (hint : Hint) (violation : Violation) : Prop where
  role_eq : violation.role = role
  cause_eq : (query classes style function role value hint).cause = .ok (some violation.cause)
  cause_starts : ∃ rest, violation.cause =
    value.describe classes style.excerptLimit ++ " " ++ rest
  shown_alike : value.describe classes style.excerptLimit =
    value.lead classes ++ value.brief classes style.excerptLimit
  message_eq : violation.message = sentence (role.label function)
    (value.brief classes style.excerptLimit) (hint.text classes) violation.cause role

section Explain

variable {classes : Hierarchy} {style : Style} {function : String} {role : Role} {value : Value}
  {hint : Hint}

/-- A call is explained exactly if there is a cause. -/
theorem exists_explain_eq_ok_iff :
    (∃ violation, explain classes style function role value hint = .ok violation) ↔
      ∃ cause, (query classes style function role value hint).cause = .ok (some cause) := by
  -- The explanation splits on the answer to the query.
  unfold explain query
  dsimp only
  split
  · next failure failed => simp [failed]
  · next nothing => simp [nothing]
  · next cause caused => simp [caused]

/-- A call is said to have nothing to explain exactly if there is no cause. -/
theorem explain_eq_alreadyFits_iff :
    explain classes style function role value hint =
        .error (.alreadyFits (role.label function) (value.brief classes style.excerptLimit)
          (hint.text classes)) ↔
      (query classes style function role value hint).cause = .ok none := by
  unfold explain query
  dsimp only
  split
  · next failure failed =>
    -- An obstacle leads to a failure of another kind.
    obtain ⟨obstacle, _, rfl⟩ := Query.cause_eq_error_iff.mp failed
    simp [failed, Obstacle.failure_ne_alreadyFits]
  · next nothing => simp [nothing]
  · next cause caused => simp [caused]

/-- An explanation tells of the call what it should. -/
theorem tells_of_explain {violation : Violation}
    (explained : explain classes style function role value hint = .ok violation) :
    violation.Tells classes style function role value hint := by
  unfold explain at explained
  dsimp only at explained
  split at explained
  · cases explained
  · cases explained
  · next cause caused =>
    cases explained
    -- The cause is worded from a misfit of this value, so it starts with its introduction.
    obtain ⟨reason, misfit, worded⟩ := Query.cause_eq_some_iff.mp caused
    obtain ⟨rest, starts⟩ := (Query.about_of_check misfit).text classes style ""
    exact {
      role_eq := rfl
      cause_eq := caused
      cause_starts := ⟨rest, worded.symm.trans starts⟩
      shown_alike := value.describe_eq classes style.excerptLimit
      message_eq := by cases role <;> rfl }

end Explain

/-- Over a hierarchy built by definitions, a call with a known value and a checkable hint is
explained exactly if the hint does not accept the value, and is said to have nothing to explain
exactly if it does; an explanation tells the cause and shows the value. -/
theorem explain_decides_accepts {classes : Hierarchy} (built : classes.WellBuilt) {value : Value}
    (known : value.Known classes) {hint : Hint} (checkable : hint.Checkable classes)
    (style : Style) (function : String) (role : Role) :
    ((∃ violation, explain classes style function role value hint = .ok violation) ↔
        ¬hint.Accepts classes value) ∧
      (explain classes style function role value hint =
          .error (.alreadyFits (role.label function) (value.brief classes style.excerptLimit)
            (hint.text classes)) ↔
        hint.Accepts classes value) ∧
      ∀ violation, explain classes style function role value hint = .ok violation →
        violation.Tells classes style function role value hint := by
  -- The check behind the explanation decides acceptance.
  have decided := Hint.decides_check built checkable known
  refine ⟨?_, ?_, fun violation => tells_of_explain⟩
  · rw [exists_explain_eq_ok_iff, Query.exists_cause_iff]
    exact decided.exists_misfit_iff
  · rw [explain_eq_alreadyFits_iff, Query.cause_eq_none_iff]
    exact decided.eq_fits_iff

/-- A result whose text is cut: the sentence and each line of its cause show the same cut text. -/
theorem explain_decides_accepts_cut_stack :
    let classes := (Hierarchy.initial.define "Stack" [.list]).2
    let value : Value := .itemsObject ⟨19⟩ [.int 1, .str "x"]
    let hint : Hint := .union [.nothing, .collection .sequence (.forwardRef "int")]
    let style : Style := { excerptLimit := 11 }
    let told : Violation := {
      role := .result
      cause := "Stack Stack([1... not any member of Optional[Sequence['int']]:" ++
        "\n  * Stack Stack([1... not NoneType" ++
        "\n  * Stack Stack([1... index 1 item str 'x' not int"
      message := "f() return Stack([1... violates type hint Optional[Sequence['int']], " ++
        "as Stack Stack([1... not any member of Optional[Sequence['int']]:" ++
        "\n  * Stack Stack([1... not NoneType" ++
        "\n  * Stack Stack([1... index 1 item str 'x' not int." }
    classes.WellBuilt ∧ value.Known classes ∧ hint.Checkable classes ∧
      explain classes style "f" .result value hint = .ok told ∧
      ¬hint.Accepts classes value ∧ told.Tells classes style "f" .result value hint := by
  -- The class, the value and the hint are as the theorem asks, and so it applies to the result.
  intro classes value hint style told
  have built : classes.WellBuilt := .define "Stack" .initial (by decide)
  have known : value.Known classes :=
    .intro rfl (by simpa [value, Value.parts] using
      ⟨Value.known_int classes 1, Value.known_str classes "x"⟩)
  have named : (Hint.forwardRef "int").Checkable classes := .leaf rfl rfl
  have items : (Hint.collection .sequence (.forwardRef "int")).Checkable classes :=
    .intro trivial (by simpa [Hint.parts, Hint.Checkable] using named)
  have nothing : Hint.nothing.Checkable classes := .leaf trivial rfl
  have checkable : hint.Checkable classes :=
    .intro trivial (by simpa [hint, Hint.parts] using ⟨nothing, items⟩)
  have explained : explain classes style "f" .result value hint = .ok told := by decide +kernel
  obtain ⟨refused, _, tells⟩ := explain_decides_accepts built known checkable style "f" .result
  exact ⟨built, known, checkable, explained, refused.mp ⟨told, explained⟩, tells told explained⟩

end Violation

end Misfit
