import Misfit.Proofs.Finding

/-! What findings tell: properties of reasons and obstacles that hold of every outcome. -/

namespace Misfit

namespace Finding

variable {α β γ : Type} {reasons : α → Prop} {obstacles : Obstacle → Prop}

/-- What a finding tells has the given properties: its reason if it is a misfit, and its obstacle if
it is blocked. -/
def Tells (reasons : α → Prop) (obstacles : Obstacle → Prop) : Finding α → Prop
  | .fits => True
  | .misfit reason => reasons reason
  | .blocked obstacle => obstacles obstacle

/-- A reworded reason has the properties that the rewording brings about. -/
theorem Tells.map {found : Finding α} {reworded : β → Prop} {reword : α → β}
    (tells : found.Tells reasons obstacles)
    (each : ∀ reason, reasons reason → reworded (reword reason)) :
    (found.map reword).Tells reworded obstacles := by
  -- Only a misfit has a reason, and obstacles stay as they are.
  cases found with
  | fits => trivial
  | misfit reason => exact each reason tells
  | blocked obstacle => exact tells

/-- Two checks tell no more than each of them. -/
theorem Tells.andThen {found : Finding α} {next : Unit → Finding α}
    (first : found.Tells reasons obstacles) (second : (next ()).Tells reasons obstacles) :
    (found.andThen next).Tells reasons obstacles := by
  -- The second check is made after a fit only, and a fit tells nothing.
  cases found with
  | fits => exact second
  | misfit reason => exact first
  | blocked obstacle => exact first

/-- A check that is left out tells nothing. -/
theorem Tells.unlessVacuous {hint : Hint} {found : Unit → Finding α}
    (tells : (found ()).Tells reasons obstacles) :
    (Finding.unlessVacuous hint found).Tells reasons obstacles := by
  -- What is found in its place is a fit, of which there is nothing to tell.
  unfold Finding.unlessVacuous
  split
  · trivial
  · exact tells

/-- A search tells what one of its checks does. -/
theorem tells_firstOf {check : γ → Finding α} {items : List γ}
    (each : ∀ item ∈ items, (check item).Tells reasons obstacles) :
    (firstOf check items).Tells reasons obstacles := by
  -- The search is one check followed by the search through the rest.
  induction items with
  | nil => trivial
  | cons item rest ih =>
    rw [firstOf_cons]
    exact (each item (by simp)).andThen (ih fun later member => each later (by simp [member]))

/-- Alternatives tell the reasons of all of them, or the obstacle of one. -/
theorem tells_anyOf {check : γ → Finding α} {items : List γ}
    (each : ∀ item ∈ items, (check item).Tells reasons obstacles) :
    (anyOf (items.map check)).Tells (fun all => ∀ reason ∈ all, reasons reason) obstacles := by
  -- Reasons are gathered as long as each alternative is a misfit.
  induction items with
  | nil =>
    intro reason member
    cases member
  | cons item rest ih =>
    have head := each item (by simp)
    have tail := ih fun later member => each later (by simp [member])
    rw [List.map_cons]
    cases found : check item with
    | fits => trivial
    | misfit reason =>
      rw [found] at head
      -- The first reason is put before the others.
      exact tail.map fun all holds => List.forall_mem_cons.mpr ⟨head, holds⟩
    | blocked obstacle =>
      rw [found] at head
      exact head

end Finding

end Misfit
