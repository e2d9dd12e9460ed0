/-! Alternatives in running text. -/

namespace Misfit

/-- The items as alternatives: `a`, `a or b`, `a, b, or c`. -/
def disjunction : List String → String
  | [] => ""
  | [only] => only
  | [first, second] => first ++ " or " ++ second
  | first :: second :: third :: rest =>
    let later := second :: third :: rest
    ", ".intercalate (first :: later.dropLast) ++ ", or " ++ later.getLast (List.cons_ne_nil _ _)

end Misfit
