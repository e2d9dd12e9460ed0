import Misfit.Cause.Text
import Misfit.Hint.Check

/-! The causes that are listed under a union, and their wordings. -/

namespace Misfit

namespace Cause

/-- The wordings of several causes are those of each of them. -/
theorem texts_eq_map (classes : Hierarchy) (style : Style) (indent : String)
    (causes : List Cause) : texts classes style indent causes =
      causes.map (text classes style indent) := by
  -- The list is gone through cause by cause.
  induction causes with
  | nil => rfl
  | cons cause rest ih => rw [texts, List.map_cons, ih]

/-- A cause under a union lists, besides the given causes, one mismatch for its plain classes. -/
theorem mem_ofMembers (value : Value) (members : List Hint) (causes : List Cause) :
    ∃ listed, ofMembers value members causes = .alternatives value members listed ∧
      ∀ cause ∈ listed, cause ∈ causes ∨
        ∃ refs, cause = .mismatch value (.instanceOf refs) ∧
          ∀ ref ∈ refs, .instanceOf ref ∈ members := by
  -- What is told of the plain classes comes first, and then all that is told of the others.
  refine ⟨_, rfl, ?_⟩
  intro cause member
  rcases List.mem_append.mp member with together | other
  · split at together
    · cases together
    · refine .inr ⟨_, List.mem_singleton.mp together, ?_⟩
      -- The classes reported together are those of the members that are plain classes.
      intro ref named
      obtain ⟨hint, listed, kept⟩ := List.mem_filterMap.mp named
      cases hint with
      | instanceOf other =>
        cases kept
        exact listed
      | _ => cases kept
  · -- Each of the others belongs to a member.
    obtain ⟨⟨hint, found⟩, listed, kept⟩ := List.mem_filterMap.mp other
    have own : found = cause := by
      cases hint with
      | instanceOf ref => cases kept
      | _ => exact Option.some.inj kept
    exact .inl (own ▸ (List.of_mem_zip listed).2)

end Cause

end Misfit
