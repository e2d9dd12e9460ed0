import Mathlib.Data.List.TakeWhile

/-! Runs at the start of a list: where they end, and that a list determines them. -/

namespace Misfit

variable {α : Type}

/-- A list does not start with an item of some kind. -/
def Ends (p : α → Bool) (rest : List α) : Prop := ∀ item ∈ rest.head?, p item = false

/-- A list that starts with an item of another kind ends a run. -/
theorem Ends.cons {p : α → Bool} {item : α} (other : p item = false) (rest : List α) :
    Ends p (item :: rest) := by
  -- The first item is the only one that a run could go on with.
  simpa [Ends] using other

/-- No item is taken of a list that ends a run. -/
theorem Ends.takeWhile {p : α → Bool} {rest : List α} (ends : Ends p rest) :
    rest.takeWhile p = [] := by
  -- The run is over before the first item, if there is one.
  cases rest with
  | nil => rfl
  | cons item rest => exact List.takeWhile_cons_of_neg (by simp [ends item rfl])

/-- A run ends with the first of two lists if the second ends it. -/
theorem takeWhile_append_of_ends {p : α → Bool} {first second : List α} (ends : Ends p second) :
    (first ++ second).takeWhile p = first.takeWhile p := by
  -- Whether the first list is a run throughout or not, nothing is taken of the second.
  rw [List.takeWhile_append, ends.takeWhile, List.append_nil]
  split
  · next whole => exact ((List.takeWhile_prefix p).eq_of_length whole).symm
  · rfl

/-- A run, and what ends it, are determined by the list that they make up. -/
theorem append_inj_of_run {p : α → Bool} {first second rest other : List α}
    (run : ∀ item ∈ first, p item = true) (run' : ∀ item ∈ second, p item = true)
    (ends : Ends p rest) (ends' : Ends p other) (same : first ++ rest = second ++ other) :
    first = second ∧ rest = other := by
  -- Both runs are what is taken from the same list.
  have runs : first = second := by
    have taken := congrArg (List.takeWhile p) same
    rwa [takeWhile_append_of_ends ends, takeWhile_append_of_ends ends',
      List.takeWhile_eq_self_iff.mpr run, List.takeWhile_eq_self_iff.mpr run'] at taken
  -- What is left of it is the same, too.
  subst runs
  exact ⟨rfl, List.append_cancel_left same⟩

end Misfit
