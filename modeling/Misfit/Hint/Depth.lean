import Misfit.Hint.Basic

/-! How deep hints are nested. -/

namespace Misfit

namespace Hint

mutual

/-- How deep a hint is nested. A plain class is the least of all hints, as any other hint can come
down to asking for an instance of one. -/
def depth : Hint → Nat
  | .instanceOf _ => 0
  | .union members => depths members + 1
  | .collection _ item => depth item + 1
  | .tuple items => depths items + 1
  | .tupleOf item => depth item + 1
  | .mapping _ key value => max (depth key) (depth value) + 1
  | .generic _ bases => depths bases + 1
  | .callable parameters result => max (depths parameters) (depth result) + 1
  | _ => 1

/-- The greatest depth among the given hints. -/
def depths : List Hint → Nat
  | [] => 0
  | hint :: rest => max (depth hint) (depths rest)

end

/-- None of the given hints is nested deeper than the deepest of them. -/
theorem depth_le_depths {hint : Hint} {hints : List Hint} (member : hint ∈ hints) :
    hint.depth ≤ depths hints := by
  -- Each further hint leaves the maximum as it is or raises it.
  induction hints with
  | nil => cases member
  | cons first rest ih =>
    rw [depths]
    rcases List.mem_cons.mp member with rfl | later
    · exact Nat.le_max_left _ _
    · exact Nat.le_trans (ih later) (Nat.le_max_right _ _)

/-- Every part of a hint is nested less deep than the hint. -/
theorem depth_part_lt {hint part : Hint} (member : part ∈ hint.parts) :
    part.depth < hint.depth := by
  -- The depth of a hint is one more than the greatest among its parts.
  cases hint with
  | union members | tuple items | generic origin bases =>
    exact Nat.lt_succ_of_le (depth_le_depths member)
  | collection form item | tupleOf item =>
    rw [List.mem_singleton.mp member]
    exact Nat.lt_succ_self _
  | mapping form key value =>
    -- The greater depth of the two counts, and so each is below it.
    simp only [parts, List.mem_cons, List.not_mem_nil, or_false] at member
    rw [depth]
    rcases member with rfl | rfl
    · omega
    · omega
  | callable parameters result =>
    -- A parameter counts with all the others, and the result beside them.
    simp only [parts, List.mem_append, List.mem_singleton] at member
    rw [depth]
    rcases member with member | rfl
    · have within := depth_le_depths member
      omega
    · omega
  | _ => simp [parts] at member

end Hint

end Misfit
