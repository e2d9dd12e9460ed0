import Misfit.Proofs.Cause.Scope
import Misfit.Proofs.Query.Misfits
import Misfit.Proofs.Query.Union

/-! The report of a union that a value does not fit: what is told under each of its members, once
and in order, with the plain classes taken together. -/

namespace Misfit

namespace Query

section Layouts

variable {query : Query} {members : List Hint} {text : String}

end Layouts

/-- The plain classes are reported first and together, wherever they stand among the members. -/
example :
    let items : Hint := .union [.literal [.int 1], .instanceOf .bytes]
    let members : List Hint :=
      [.collection .list items, .instanceOf .int, .forwardRef "str", .instanceOf .float]
    let value : Value := .container .list [.none]
    (⟨value, .union members, "", "f() parameter x", .initial, {}⟩ : Query).cause =
      .ok (some ("list [None] not any member of " ++
        "Union[List[Union[Literal[1], bytes]], int, 'str', float]:\n" ++
        "  * list [None] not int or float\n" ++
        "  * list [None] index 0 item None not any member of Union[Literal[1], bytes]:\n" ++
        "    * None not bytes\n" ++
        "    * None not 1\n" ++
        "  * list [None] not str")) := by
  decide +kernel

end Query

end Misfit
