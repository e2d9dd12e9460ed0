import Misfit.Value.Excerpt

/-! Texts that grow by some number of bytes, or as far as a budget allows. -/

namespace Misfit

/-- One text grew into another: no byte was lost, and within the budget at least some number of
bytes came in addition. -/
structure Grown (budget count : Nat) (before after : String) : Prop where
  kept : before.utf8ByteSize ≤ after.utf8ByteSize
  added : after.utf8ByteSize ≤ budget → before.utf8ByteSize + count ≤ after.utf8ByteSize

namespace Grown

variable {budget count : Nat} {before after : String}

/-- A text grows by the bytes of what is appended. -/
theorem append (budget : Nat) (before : String) {text : String}
    (enough : count ≤ text.utf8ByteSize) : Grown budget count before (before ++ text) := by
  -- The bytes of the whole are those of both, so as many came in as the new text has.
  rw [← Nat.add_le_add_iff_left (n := before.utf8ByteSize), ← String.utf8ByteSize_append] at enough
  exact ⟨Nat.le_trans (Nat.le_add_right _ _) enough, fun _ => enough⟩

/-- A text that exceeds the budget need not grow. -/
theorem of_exceeded (exceeded : budget < before.utf8ByteSize) (count : Nat) :
    Grown budget count before before := by
  -- The promise is about texts within the budget only.
  refine ⟨Nat.le_refl _, ?_⟩
  intro within
  omega

/-- A text that grows twice grows by both counts. -/
theorem trans {count' : Nat} {between : String} (first : Grown budget count before between)
    (second : Grown budget count' between after) : Grown budget (count + count') before after := by
  have ⟨kept, added⟩ := first
  have ⟨kept', added'⟩ := second
  refine ⟨by omega, ?_⟩
  -- What is within the budget at last was so all the time.
  intro within
  have head := added (by omega)
  have tail := added' within
  omega

/-- A text that has grown stays so when more is appended. -/
theorem followed (grown : Grown budget count before after) (text : String) :
    Grown budget count before (after ++ text) :=
  -- Nothing is promised of the text behind, and nothing is lost by it.
  grown.trans (append budget after (Nat.zero_le _))

/-- A text that grows after something was put before it grows by as much. -/
theorem preceded {text : String} (grown : Grown budget count (before ++ text) after) :
    Grown budget count before after := by
  -- What was put before only adds to the growth.
  simpa using (append budget before (Nat.zero_le text.utf8ByteSize)).trans grown

/-- If a text exceeds the budget together with some number of bytes more, the text that grew out of
it does so with as many bytes fewer as were promised to it. -/
theorem beyond {further : Nat} (grown : Grown budget count before after)
    (beyond : budget < before.utf8ByteSize + further) (passed : count ≤ further) :
    budget < after.utf8ByteSize + (further - count) := by
  -- Either all the promised bytes were added, or the text exceeds the budget by itself.
  by_cases within : after.utf8ByteSize ≤ budget
  · have more := grown.added within
    omega
  · omega

end Grown

/-- No byte is lost when pieces are appended within a budget. -/
theorem grown_appendWithin {α : Type} (budget : Nat) (piece : α → String) (items : List α)
    (out : String) : Grown budget 0 out (appendWithin budget piece items out) := by
  -- Each piece is only put behind what is there.
  induction items generalizing out with
  | nil => exact ⟨Nat.le_refl _, fun _ => Nat.le_refl _⟩
  | cons item rest ih =>
    rw [appendWithin]
    split
    · next exceeded => exact .of_exceeded exceeded 0
    · exact (ih (out ++ piece item)).preceded

end Misfit
