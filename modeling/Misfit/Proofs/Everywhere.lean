/-! Properties that hold of a nested thing at every depth, or at one. -/

namespace Misfit

/-- A property holds of a thing, of its parts, and of their parts in turn. -/
inductive Everywhere {α : Type} (parts : α → List α) (property : α → Prop) : α → Prop where
  | intro {whole : α} (here : property whole)
      (below : ∀ part ∈ parts whole, Everywhere parts property part) :
      Everywhere parts property whole

namespace Everywhere

variable {α : Type} {parts : α → List α} {property : α → Prop} {whole : α}

/-- What holds everywhere holds of the whole, and everywhere in each of its parts. -/
theorem iff_here_and_below :
    Everywhere parts property whole ↔
      property whole ∧ ∀ part ∈ parts whole, Everywhere parts property part := by
  -- There is only one way to show it, so its two premises can be read back.
  constructor
  · intro everywhere
    cases everywhere with
    | intro here below => exact ⟨here, below⟩
  · rintro ⟨here, below⟩
    exact .intro here below

/-- What holds everywhere holds of the whole. -/
theorem here (everywhere : Everywhere parts property whole) : property whole :=
  -- The property is asked for at the whole before it is at the parts.
  (iff_here_and_below.mp everywhere).1

/-- What holds everywhere holds everywhere in each part. -/
theorem part (everywhere : Everywhere parts property whole) {inner : α}
    (member : inner ∈ parts whole) : Everywhere parts property inner :=
  -- That is what the property asks for below the whole.
  (iff_here_and_below.mp everywhere).2 inner member

/-- What holds of a thing without parts holds everywhere in it. -/
theorem leaf (here : property whole) (plain : parts whole = []) :
    Everywhere parts property whole :=
  -- Without parts there is nothing further that the property would be asked of.
  .intro here (by simp [plain])

/-- What follows from a property that holds everywhere holds everywhere. -/
theorem imp {weaker : α → Prop} (everywhere : Everywhere parts property whole)
    (each : ∀ inner, property inner → weaker inner) : Everywhere parts weaker whole := by
  -- The one property is put in place of the other at each depth, from the parts upwards.
  induction everywhere with
  | intro here _ ih => exact .intro (each _ here) ih

end Everywhere

/-- A property holds of a thing, or of one of its parts, or of one of theirs in turn. -/
inductive Somewhere {α : Type} (parts : α → List α) (property : α → Prop) : α → Prop where
  | here {whole : α} (holds : property whole) : Somewhere parts property whole
  | inside {whole part : α} (member : part ∈ parts whole)
      (deeper : Somewhere parts property part) : Somewhere parts property whole

/-- Where a property holds somewhere and another one everywhere, both hold of one thing. -/
theorem Somewhere.exists_both {α : Type} {parts : α → List α} {property other : α → Prop}
    {whole : α} (somewhere : Somewhere parts property whole)
    (everywhere : Everywhere parts other whole) : ∃ inner, property inner ∧ other inner := by
  -- The way down to the first property stays inside what the other one holds of.
  induction somewhere with
  | here holds => exact ⟨_, holds, everywhere.here⟩
  | inside member _ ih => exact ih (everywhere.part member)

end Misfit
