import Mathlib.Data.List.Forall2
import Misfit.Proofs.Everywhere

/-! Relations between nested things that hold part by part. -/

namespace Misfit

/-- A relation holds between two things exactly if a relation of their outermost forms does and it
holds between their parts, one by one. Parts are smaller than the whole. -/
structure PartByPart {α : Type} [SizeOf α] (parts : α → List α) (form related : α → α → Prop) :
    Prop where
  iff_parts : ∀ whole other,
    related whole other ↔ form whole other ∧ List.Forall₂ related (parts whole) (parts other)
  smaller : ∀ whole, ∀ part ∈ parts whole, sizeOf part < sizeOf whole

/-- What relates the items of two lists, and those of the second and a third, is composed. -/
theorem forall₂_comp {α : Type} {first second both : α → α → Prop} {items middle others : List α}
    (compose : ∀ item ∈ items, ∀ between other, first item between → second between other →
      both item other)
    (left : List.Forall₂ first items middle) (right : List.Forall₂ second middle others) :
    List.Forall₂ both items others := by
  -- The three lists are used up in step.
  induction left generalizing others with
  | nil =>
    cases right
    exact .nil
  | cons head _ ih =>
    cases right with
    | cons next rest =>
      exact .cons (compose _ (by simp) _ _ head next)
        (ih (fun item member => compose item (by simp [member])) rest)

namespace PartByPart

variable {α : Type} [SizeOf α] {parts : α → List α} {form related : α → α → Prop}

/-- A relation is symmetric if that of the outermost forms is. -/
theorem symm (partwise : PartByPart parts form related)
    (formSymm : ∀ whole other, form whole other → form other whole) {whole other : α}
    (holds : related whole other) : related other whole := by
  obtain ⟨outside, inside⟩ := (partwise.iff_parts _ _).mp holds
  apply (partwise.iff_parts _ _).mpr
  refine ⟨formSymm _ _ outside, ?_⟩
  -- Pairs of parts are turned round before the pair of which they are parts.
  have turned : ∀ part ∈ parts whole, ∀ other, related part other → related other part :=
    fun part member other holds => partwise.symm formSymm holds
  have each := (List.forall₂_and_left (parts whole) (parts other)).mpr ⟨turned, inside⟩
  exact (each.imp fun part other both => both.1 other both.2).flip
termination_by sizeOf whole
decreasing_by exact partwise.smaller _ _ ‹_›

/-- A relation is transitive if that of the outermost forms is. -/
theorem trans (partwise : PartByPart parts form related)
    (formTrans : ∀ whole between other, form whole between → form between other →
      form whole other) {whole between other : α} (first : related whole between)
    (second : related between other) : related whole other := by
  -- The outermost forms are composed, and then the parts, which are smaller.
  obtain ⟨outside, inside⟩ := (partwise.iff_parts _ _).mp first
  obtain ⟨outside', inside'⟩ := (partwise.iff_parts _ _).mp second
  apply (partwise.iff_parts _ _).mpr
  refine ⟨formTrans _ _ _ outside outside', forall₂_comp ?_ inside inside'⟩
  exact fun part member between other first second => partwise.trans formTrans first second
termination_by sizeOf whole
decreasing_by exact partwise.smaller _ _ ‹_›

/-- A thing is not related to itself exactly if its form, or that of some part of it at any depth,
is not related to itself. -/
theorem not_self_iff (partwise : PartByPart parts form related) {whole : α} :
    ¬related whole whole ↔ Somewhere parts (fun inner => ¬form inner inner) whole := by
  -- Both directions follow the way down to the fault.
  constructor
  · intro apart
    rw [partwise.iff_parts, List.forall₂_same, not_and] at apart
    by_cases outside : form whole whole
    · -- The fault is with some part, and then inside that one.
      have inside := apart outside
      push Not at inside
      obtain ⟨part, member, apart⟩ := inside
      exact .inside member (partwise.not_self_iff.mp apart)
    · exact .here outside
  · intro somewhere same
    -- A thing that is related to itself is so in all of its parts, down to the fault.
    induction somewhere with
    | here outside => exact outside ((partwise.iff_parts _ _).mp same).1
    | inside member _ ih =>
      exact ih (List.forall₂_same.mp ((partwise.iff_parts _ _).mp same).2 _ member)
termination_by sizeOf whole
decreasing_by exact partwise.smaller _ _ ‹_›

end PartByPart

end Misfit
