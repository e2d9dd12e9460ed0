/-! Cutting a text to a number of characters. -/

namespace Misfit

/-- A text of at most `limit` characters; one that had to be cut ends in three dots, or in as many
as the limit allows. -/
def cut (limit : Nat) (text : String) : String :=
  if text.length ≤ limit then text
  else String.ofList (text.toList.take (limit - 3) ++ List.replicate (min limit 3) '.')

end Misfit
