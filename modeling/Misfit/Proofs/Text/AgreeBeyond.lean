import Misfit.Proofs.Text.Cut

/-! Texts that agree beyond a number of bytes, and so in as many characters as take fewer. -/

namespace Misfit

/-- A character takes four bytes at most. -/
theorem utf8ByteSize_ofList_le (chars : List Char) :
    (String.ofList chars).utf8ByteSize ≤ 4 * chars.length := by
  -- The bytes of a text are those of its characters, one after the other.
  induction chars with
  | nil => simp
  | cons c rest ih =>
    have width := c.utf8Size_le_four
    rw [String.ofList_cons, String.utf8ByteSize_append, String.utf8ByteSize_singleton,
      List.length_cons]
    omega

/-- Two texts agree beyond a budget of bytes: they are the same, or they share a beginning of more
bytes than that. -/
def AgreeBeyond (budget : Nat) (part whole : String) : Prop :=
  part = whole ∨ ∃ start rest other, budget < start.utf8ByteSize ∧
    part = start ++ rest ∧ whole = start ++ other

namespace AgreeBeyond

variable {budget : Nat} {part whole : String}

/-- Every text agrees with itself. -/
theorem refl (text : String) : AgreeBeyond budget text text :=
  -- There is no difference that would have to come late.
  .inl rfl

/-- Texts that agree still do so when the same text follows both. -/
theorem append (agree : AgreeBeyond budget part whole) (text : String) :
    AgreeBeyond budget (part ++ text) (whole ++ text) := by
  -- Whatever follows, the shared beginning stays where it is.
  rcases agree with rfl | ⟨start, rest, other, long, rfl, rfl⟩
  · exact .inl rfl
  · exact .inr ⟨start, rest ++ text, other ++ text, long, String.append_assoc,
      String.append_assoc⟩

/-- A text that exceeds the budget agrees with whatever extends what it agrees with. -/
theorem extend (agree : AgreeBeyond budget part whole) (exceeded : budget < part.utf8ByteSize)
    (text : String) : AgreeBeyond budget part (whole ++ text) := by
  -- The shared beginning is the one known so far, or else the whole of the first text.
  rcases agree with rfl | ⟨start, rest, other, long, rfl, rfl⟩
  · exact .inr ⟨part, "", text, exceeded, by simp, rfl⟩
  · exact .inr ⟨start, rest, other ++ text, long, rfl, String.append_assoc⟩

/-- A whole text within the budget leaves no room for a difference. -/
theorem eq_of_le (agree : AgreeBeyond budget part whole) (short : whole.utf8ByteSize ≤ budget) :
    part = whole := by
  -- The texts are the same, or differ behind a beginning that exceeds the budget.
  rcases agree with same | ⟨start, rest, other, long, rfl, rfl⟩
  · exact same
  · -- The shared beginning alone would already exceed the budget.
    rw [String.utf8ByteSize_append] at short
    omega

/-- Texts that agree beyond the bytes of some characters have these characters in common. -/
theorem take_eq (agree : AgreeBeyond budget part whole) {count : Nat}
    (enough : 4 * count ≤ budget) : part.toList.take count = whole.toList.take count := by
  -- A character takes four bytes at most, so the shared beginning has enough of them.
  rcases agree with rfl | ⟨start, rest, other, long, rfl, rfl⟩
  · rfl
  · -- A beginning of more bytes than the characters can take has more characters.
    have size := utf8ByteSize_ofList_le start.toList
    rw [String.ofList_toList] at size
    have within : count ≤ start.toList.length := by omega
    rw [String.toList_append, String.toList_append, List.take_append_of_le_length within,
      List.take_append_of_le_length within]

/-- Texts that agree beyond the bytes of a limit of characters are cut to the same text. -/
theorem cut_eq (agree : AgreeBeyond budget part whole) {limit : Nat}
    (enough : 4 * limit ≤ budget) : cut limit part = cut limit whole := by
  -- What a cut keeps is at most the limit, so the two texts have it in common.
  have kept := agree.take_eq (show 4 * (limit - 3) ≤ budget by omega)
  rcases agree with rfl | ⟨start, rest, other, long, rfl, rfl⟩
  · rfl
  · -- The shared beginning is beyond the limit, so both texts are cut, to what they share.
    have size := utf8ByteSize_ofList_le start.toList
    rw [String.ofList_toList, String.length_toList] at size
    have beyond (more : String) : limit < (start ++ more).length := by
      rw [String.length_append]
      omega
    apply String.toList_inj.mp
    rw [toList_cut_of_lt (beyond rest), toList_cut_of_lt (beyond other), kept]

end AgreeBeyond

end Misfit
