import Misfit.Proofs.Hint.Accepts
import Misfit.Proofs.Query.Answer

/-! A query is answered with a cause exactly where the hint does not accept the value. -/

namespace Misfit

namespace Query

/-- Over a hierarchy built by definitions, a checkable hint and a known value always lead to an
answer, and the answer is that there is no cause exactly if the hint accepts the value. -/
theorem cause_decides_accepts (query : Query) (built : query.classes.WellBuilt)
    (known : query.value.Known query.classes) (checkable : query.hint.Checkable query.classes) :
    ∃ answer, query.cause = .ok answer ∧
      (answer = none ↔ query.hint.Accepts query.classes query.value) := by
  -- The check behind the answer decides acceptance, and the answer only words its outcome.
  have decided := Hint.decides_check built checkable known
  cases checked : query.hint.check query.classes query.value with
  | fits =>
    rw [checked] at decided
    exact ⟨none, cause_eq_none_iff.mpr checked, by simpa using decided⟩
  | misfit reason =>
    rw [checked] at decided
    exact ⟨some _, cause_eq_some_iff.mpr ⟨reason, checked, rfl⟩, by simpa using decided⟩
  | blocked obstacle =>
    -- An obstacle would decide nothing.
    rw [checked] at decided
    exact decided.elim

/-- An instance of a class below lists, held under a key, against a union that names its items'
class. -/
theorem cause_decides_stored_stack :
    let classes := (Hierarchy.initial.define "Stack" [.list]).2
    let value : Value := .dict [(.str "a", .itemsObject ⟨19⟩ [.int 1, .str "x"])]
    let hint : Hint := .mapping .mapping .any
      (.union [.nothing, .collection .sequence (.forwardRef "int")])
    let query : Query := ⟨value, hint, "  ", "f() parameter x", classes, {}⟩
    classes.WellBuilt ∧ value.Known classes ∧ hint.Checkable classes ∧
      ∃ answer, query.cause = .ok answer ∧ (answer = none ↔ hint.Accepts classes value) := by
  intro classes value hint query
  -- The class for the stack is defined last, over a predefined base.
  have built : classes.WellBuilt := .define "Stack" .initial (by decide)
  have stack : (Value.itemsObject ⟨19⟩ [.int 1, .str "x"]).Known classes :=
    .intro rfl (by simpa [Value.parts] using
      ⟨Value.known_int classes 1, Value.known_str classes "x"⟩)
  have known : value.Known classes :=
    .intro trivial (by simpa [value, Value.parts] using ⟨Value.known_str classes "a", stack⟩)
  -- All forms in the hint are explained, from the inside to the outside.
  have named : (Hint.forwardRef "int").Checkable classes := .leaf rfl rfl
  have items : (Hint.collection .sequence (.forwardRef "int")).Checkable classes :=
    .intro trivial (by simpa [Hint.parts, Hint.Checkable] using named)
  have nothing : Hint.nothing.Checkable classes := .leaf trivial rfl
  have union :
      (Hint.union [.nothing, .collection .sequence (.forwardRef "int")]).Checkable classes :=
    .intro trivial (by simpa [Hint.parts] using ⟨nothing, items⟩)
  have any : Hint.any.Checkable classes := .leaf trivial rfl
  have checkable : hint.Checkable classes :=
    .intro trivial (by simpa [hint, Hint.parts] using ⟨any, union⟩)
  exact ⟨built, known, checkable, cause_decides_accepts query built known checkable⟩

end Query

end Misfit
