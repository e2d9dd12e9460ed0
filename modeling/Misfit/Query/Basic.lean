import Misfit.Cause.Text
import Misfit.Explainer
import Misfit.Failure

/-! The question why a value does not fit a hint, with all that its answer depends on. -/

namespace Misfit

/-- The question why a value does not fit a hint. -/
structure Query where
  value : Value
  hint : Hint
  /-- Where the later lines of the answer start. -/
  indent : String
  /-- The caller's label for the value, which failures show. -/
  label : String
  /-- The classes that value and hint refer to. -/
  classes : Hierarchy
  style : Style

/-- Changes to a query; what is left out stays as it is. -/
structure Query.Changes where
  value : Option Value := none
  hint : Option Hint := none
  indent : Option String := none
  label : Option String := none

namespace Query

/-- The query after some changes. -/
def change (query : Query) (changes : Changes) : Query where
  value := changes.value.getD query.value
  hint := changes.hint.getD query.hint
  indent := changes.indent.getD query.indent
  label := changes.label.getD query.label
  classes := query.classes
  style := query.style

/-- The same query about another hint. -/
def about (query : Query) (hint : Hint) : Query := query.change { hint := some hint }

/-- The same query about another hint and another value. -/
def onPair (query : Query) (pair : Hint × Value) : Query :=
  query.change { value := some pair.2, hint := some pair.1 }

/-- The query about a member of a union, worded for one level deeper. -/
def forMember (query : Query) (member : Hint) : Query :=
  query.change { hint := some member, indent := some (query.indent ++ query.style.bulletIndent) }

/-- The category of the hint asked about. -/
def category? (query : Query) : Option Category := query.hint.category?

/-- The value asked about, as causes introduce it. -/
def introduction (query : Query) : String :=
  query.value.describe query.classes query.style.excerptLimit

/-- The text of any value, as causes show it. -/
def brief (query : Query) (value : Value) : String :=
  value.brief query.classes query.style.excerptLimit

/-- The failure of a hint that is of no form to be explained, or is given to an explainer that is
not made for its form. -/
def unknownForm (query : Query) : Failure :=
  .unknownForm query.label (query.hint.text query.classes)

/-- The explainer that looks after the hint, or why there is none. -/
def explainer (query : Query) : Except Failure Explainer :=
  match query.hint.explainer?, query.category? with
  | some explainer, _ => .ok explainer
  | none, some category =>
    .error (.noExplainer query.label (query.hint.text query.classes) category)
  | none, none => .error query.unknownForm

end Query

end Misfit
