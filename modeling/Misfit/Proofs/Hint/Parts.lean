import Misfit.Hint.Text

/-! Induction over the parts of a hint, and the texts of several parts. -/

namespace Misfit

namespace Hint

/-- Every part of a hint is smaller than the hint. -/
theorem sizeOf_part_lt {hint part : Hint} (member : part ∈ hint.parts) :
    sizeOf part < sizeOf hint := by
  -- A part in a list is smaller than the list, which is smaller than the hint around it.
  cases hint with
  | union members | tuple items | generic origin bases =>
    have smaller := List.sizeOf_lt_of_mem member
    simp only [parts] at smaller
    simp
    omega
  | collection form item =>
    simp only [parts, List.mem_singleton] at member
    rw [member, collection.sizeOf_spec]
    omega
  | tupleOf item =>
    simp only [parts, List.mem_singleton] at member
    rw [member, tupleOf.sizeOf_spec]
    omega
  | mapping form key value =>
    simp only [parts, List.mem_cons, List.not_mem_nil, or_false] at member
    rw [mapping.sizeOf_spec]
    rcases member with rfl | rfl
    · omega
    · omega
  | callable parameters result =>
    -- The parameters are in a list, and the result stands beside it.
    simp only [parts, List.mem_append, List.mem_singleton] at member
    rw [callable.sizeOf_spec]
    rcases member with member | rfl
    · have smaller := List.sizeOf_lt_of_mem member
      omega
    · omega
  | _ => simp [parts] at member

/-- What holds of a hint whenever it holds of its parts holds of every hint. -/
theorem parts_induction {motive : Hint → Prop}
    (step : ∀ hint, (∀ part ∈ hint.parts, motive part) → motive hint) (hint : Hint) :
    motive hint :=
  -- Parts are smaller than the hint around them.
  step hint fun part _ => parts_induction step part
termination_by sizeOf hint
decreasing_by exact sizeOf_part_lt ‹_›

/-- The texts of several hints are those of each of them. -/
theorem texts_eq_map (classes : Hierarchy) (hints : List Hint) :
    texts classes hints = hints.map (text classes) := by
  -- Hint by hint, the one list grows with the other.
  induction hints with
  | nil => rfl
  | cons hint rest ih => rw [texts, List.map_cons, ih]

end Hint

end Misfit
