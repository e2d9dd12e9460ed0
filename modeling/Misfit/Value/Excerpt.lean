import Misfit.Text.Cut
import Misfit.Value.Text

/-! The text of a value written only as far as a budget of bytes allows, so that a short excerpt
of a large value looks at a small part of it. -/

namespace Misfit

/-- Appends the pieces in turn until the text holds more than `budget` bytes. -/
def appendWithin {α : Type} (budget : Nat) (piece : α → String) : List α → String → String
  | [], out => out
  | a :: rest, out =>
    if budget < out.utf8ByteSize then out
    else appendWithin budget piece rest (out ++ piece a)

namespace Value

mutual

/-- Appends the text of a value to `out`, passing over what comes when `out` already holds more
than `budget` bytes. Brackets that were opened are closed, except a brace around cut entries. -/
def appendText (classes : Hierarchy) (budget : Nat) (value : Value) (out : String) : String :=
  if budget < out.utf8ByteSize then out
  else
    match value with
    | .none => out ++ "None"
    | .bool truth => out ++ if truth then "True" else "False"
    | .int number => out ++ Decimal.ofInt number
    | .float number => out ++ number.text
    | .str content =>
      appendWithin budget Quoted.escapeChar content.toList (out ++ "'") ++ "'"
    | .bytes content => appendWithin budget Quoted.escapeByte content (out ++ "b'") ++ "'"
    | .container kind items =>
      appendItems classes budget "" items (out ++ kind.opening items.length) ++
        kind.closing items.length
    | .dict entries => appendEntries classes budget "" entries (out ++ "\x7b")
    | .classObject ref => out ++ "<class '" ++ classes.nameOf ref ++ "'>"
    | .object ref => out ++ "<" ++ classes.nameOf ref ++ " object>"
    | .itemsObject ref items =>
      appendItems classes budget "" items (out ++ classes.nameOf ref ++ "([") ++ "])"
    | .entriesObject ref entries =>
      appendEntries classes budget "" entries (out ++ classes.nameOf ref ++ "(\x7b") ++ ")"

/-- Appends the texts of items while the budget lasts, with `separator` before the first and a
comma before each later one. -/
def appendItems (classes : Hierarchy) (budget : Nat) (separator : String) :
    List Value → String → String
  | [], out => out
  | item :: rest, out =>
    if budget < out.utf8ByteSize then out
    else
      appendItems classes budget ", " rest (appendText classes budget item (out ++ separator))

/-- Appends the texts of entries while the budget lasts, and the closing brace if it lasts to the
end. -/
def appendEntries (classes : Hierarchy) (budget : Nat) (separator : String) :
    List (Value × Value) → String → String
  | [], out => out ++ "\x7d"
  | (key, value) :: rest, out =>
    if budget < out.utf8ByteSize then out
    else
      appendEntries classes budget ", " rest
        (appendText classes budget value
          (appendText classes budget key (out ++ separator) ++ ": "))

end

/-- The largest budget, in bytes. -/
def largestBudget : Nat := UInt64.size - 1

/-- The text of a value up to some point beyond its first `count` characters. -/
def excerpt (classes : Hierarchy) (count : Nat) (value : Value) : String :=
  -- A character takes four bytes at most.
  appendText classes (min (4 * count) largestBudget) value ""

/-- The text of a value, cut to `limit` characters. -/
def brief (classes : Hierarchy) (limit : Nat) (value : Value) : String :=
  cut limit (excerpt classes limit value)

/-- The class of a value and its text, cut to `limit` characters; `None` stands for itself. -/
def describe (classes : Hierarchy) (limit : Nat) (value : Value) : String :=
  match value with
  | .none => brief classes limit value
  | _ => classes.nameOf value.classRef ++ " " ++ brief classes limit value

end Value

end Misfit
