import Misfit.Hint.Equality

/-! Building unions in their plain form: no union directly inside, no member twice. -/

namespace Misfit

namespace Hint

/-- The members that a hint brings into a union: its own if it is one, else itself. -/
def alternatives : Hint → List Hint
  | .union members => members
  | hint => [hint]

/-- The union of the given hints. A lone member stands for itself. -/
def unionOf (hints : List Hint) : Hint :=
  -- Of equal members the first is kept.
  match (hints.flatMap alternatives).eraseDups with
  | [only] => only
  | members => .union members

/-- Either the hint or the value `None`. -/
def optional (hint : Hint) : Hint := unionOf [hint, .nothing]

end Hint

end Misfit
