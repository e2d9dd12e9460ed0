import Mathlib.Data.List.Basic

/-! Leaving out duplicates, under an equality by which an item need not equal itself. -/

namespace Misfit

variable {α : Type} [BEq α]

/-- No item of a list equals an earlier one. -/
def Distinct (items : List α) : Prop :=
  items.Pairwise fun earlier later => (later == earlier) = false

/-- What holds of a list whenever it holds of the rest without the equals of the first item holds of
every list. -/
theorem eraseDups_induction {motive : List α → Prop} (nil : motive [])
    (cons : ∀ first rest, motive (rest.filter fun later => !later == first) →
      motive (first :: rest)) (items : List α) : motive items := by
  -- The rest is shorter than the list, and without some of its items it is shorter still.
  induction length : items.length using Nat.strongRecOn generalizing items with
  | ind count ih =>
    cases items with
    | nil => exact nil
    | cons first rest =>
      have filtered := List.length_filter_le (fun later => !later == first) rest
      rw [List.length_cons] at length
      exact cons first rest (ih _ (by omega) _ rfl)

/-- What is kept of a list was in it. -/
theorem mem_of_mem_eraseDups {item : α} {items : List α} (kept : item ∈ items.eraseDups) :
    item ∈ items := by
  -- It is the first item, or one of the rest that are not its equals.
  induction items using eraseDups_induction with
  | nil => exact kept
  | cons first rest ih =>
    rw [List.eraseDups_cons] at kept
    rcases List.mem_cons.mp kept with rfl | later
    · exact List.mem_cons_self
    · exact List.mem_cons_of_mem _ (List.mem_of_mem_filter (ih later))

/-- No two of the items that are kept are equal. -/
theorem distinct_eraseDups (items : List α) : Distinct items.eraseDups := by
  induction items using eraseDups_induction with
  | nil => exact .nil
  | cons first rest ih =>
    rw [List.eraseDups_cons]
    refine .cons ?_ ih
    -- What is kept behind the first item was not left out as its equal.
    intro later kept
    simpa using (List.mem_filter.mp (mem_of_mem_eraseDups kept)).2

/-- Nothing is left out of a list without duplicates. -/
theorem Distinct.eraseDups_eq {items : List α} (distinct : Distinct items) :
    items.eraseDups = items := by
  -- No later item equals the first one, so none goes with it.
  induction distinct with
  | nil => rfl
  | @cons first rest apart _ ih =>
    have whole : (rest.filter fun later => !later == first) = rest :=
      List.filter_eq_self.mpr fun later member => by simp [apart later member]
    rw [List.eraseDups_cons, whole, ih]

/-- A property that equal items have in common can be asked for before duplicates are left out, or
after. -/
theorem filter_eraseDups {kept : α → Bool}
    (alike : ∀ later earlier, (later == earlier) = true → kept later = true →
      kept earlier = true) (items : List α) :
    items.eraseDups.filter kept = (items.filter kept).eraseDups := by
  -- By induction on the list without its duplicates, of which the first item is kept or not.
  induction items using eraseDups_induction with
  | nil => rfl
  | cons first rest ih =>
    rw [List.eraseDups_cons]
    cases keep : kept first with
    | true =>
      rw [List.filter_cons_of_pos keep, List.filter_cons_of_pos keep, List.eraseDups_cons, ih,
        List.filter_filter, List.filter_filter]
      simp only [Bool.and_comm]
    | false =>
      -- With the first item its equals go too, so nothing more is lost with them.
      have same : (rest.filter fun later => !later == first).filter kept = rest.filter kept := by
        rw [List.filter_filter]
        apply List.filter_congr
        intro later _
        cases keepLater : kept later with
        | false => rfl
        | true =>
          cases equal : later == first with
          | false => rfl
          | true =>
            rw [alike later first equal keepLater] at keep
            cases keep
      have dropped : ¬kept first = true := by simp [keep]
      rw [List.filter_cons_of_neg dropped, List.filter_cons_of_neg dropped, ih, same]

/-- Duplicates can be left out of the first of two lists beforehand. -/
theorem eraseDups_append_left (first second : List α) :
    (first.eraseDups ++ second).eraseDups = (first ++ second).eraseDups := by
  induction first using eraseDups_induction generalizing second with
  | nil => rfl
  | cons head rest ih =>
    -- What the first list keeps behind its head has no equals of the head any more.
    have apart : ((rest.filter fun later => !later == head).eraseDups.filter
        fun later => !later == head) = (rest.filter fun later => !later == head).eraseDups :=
      List.filter_eq_self.mpr fun later kept =>
        (List.mem_filter.mp (mem_of_mem_eraseDups kept)).2
    rw [List.eraseDups_cons, List.cons_append, List.cons_append, List.eraseDups_cons,
      List.eraseDups_cons, List.filter_append, List.filter_append, apart, ih]

/-- Duplicates can be left out of the second of two lists beforehand. -/
theorem eraseDups_append_right [PartialEquivBEq α] (first second : List α) :
    (first ++ second.eraseDups).eraseDups = (first ++ second).eraseDups := by
  -- By induction on the first list, of which each head drops its equals from both.
  induction first using eraseDups_induction generalizing second with
  | nil => exact (distinct_eraseDups second).eraseDups_eq
  | cons head rest ih =>
    -- What equals an equal of the head equals the head.
    have alike : ∀ later earlier : α, (later == earlier) = true → (!later == head) = true →
        (!earlier == head) = true := by
      intro later earlier same apart
      simp only [Bool.not_eq_true', ← Bool.not_eq_true] at apart ⊢
      exact fun equal => apart (BEq.trans same equal)
    rw [List.cons_append, List.cons_append, List.eraseDups_cons, List.eraseDups_cons,
      List.filter_append, List.filter_append, filter_eraseDups alike, ih]

end Misfit
