import Misfit.Number.Decimal

/-! Texts that are no longer than others: what a text is made of is no longer than the text. -/

namespace Misfit

/-- A text is no longer than another, neither in characters nor in bytes. -/
structure NoLonger (text other : String) : Prop where
  length : text.length ≤ other.length
  bytes : text.utf8ByteSize ≤ other.utf8ByteSize

namespace NoLonger

variable {text other : String}

/-- No text is longer than itself. -/
theorem refl (text : String) : NoLonger text text :=
  -- Both measures agree with themselves.
  ⟨Nat.le_refl _, Nat.le_refl _⟩

/-- What is no longer than a text is no longer than what that one is no longer than. -/
theorem trans {between : String} (first : NoLonger text between)
    (second : NoLonger between other) : NoLonger text other :=
  -- Both measures are compared in the same way.
  ⟨Nat.le_trans first.length second.length, Nat.le_trans first.bytes second.bytes⟩

/-- Texts joined to no longer ones are no longer. -/
theorem append {more further : String} (first : NoLonger text other)
    (second : NoLonger more further) : NoLonger (text ++ more) (other ++ further) := by
  -- Characters and bytes of both texts are added up.
  have ⟨length, bytes⟩ := first
  have ⟨length', bytes'⟩ := second
  constructor
  · rw [String.length_append, String.length_append]
    omega
  · rw [String.utf8ByteSize_append, String.utf8ByteSize_append]
    omega

/-- The empty text is the shortest of all. -/
theorem empty (text : String) : NoLonger "" text :=
  -- It has neither characters nor bytes.
  ⟨by simp, by simp⟩

/-- What stands before a text makes it no shorter. -/
theorem behind (before : String) (short : NoLonger text other) :
    NoLonger text (before ++ other) := by
  -- The empty text could stand before the first one.
  simpa using (empty before).append short

/-- What stands after a text makes it no shorter. -/
theorem before (short : NoLonger text other) (behind : String) :
    NoLonger text (other ++ behind) := by
  -- The empty text could stand behind the first one.
  simpa using short.append (empty behind)

/-- A text is no longer than several that are joined, if it is one of them. -/
theorem join {texts : List String} (member : text ∈ texts) :
    NoLonger text (String.join texts) := by
  -- Whatever is joined to it, before or after, makes the whole longer.
  induction texts with
  | nil => cases member
  | cons first rest ih =>
    rw [String.join_cons]
    rcases List.mem_cons.mp member with rfl | later
    · exact (refl text).before _
    · exact (ih later).behind first

/-- A text is no longer than a list with separators, if it is one of those listed. -/
theorem intercalate (separator : String) {texts : List String} (member : text ∈ texts) :
    NoLonger text (separator.intercalate texts) := by
  -- The text is the first of the list or comes later, behind a separator.
  induction texts with
  | nil => cases member
  | cons first rest ih =>
    cases rest with
    | nil =>
      rw [List.mem_singleton] at member
      simpa [member] using refl first
    | cons second rest =>
      -- More text stands before or behind the one that is meant.
      rw [String.intercalate_cons_cons]
      rcases List.mem_cons.mp member with rfl | later
      · exact ((refl text).before _).before _
      · exact (ih later).behind _

end NoLonger

namespace Decimal

/-- The number of a byte is no longer than the quotes around a byte sequence. -/
theorem noLonger_ofNat_byte (byte : UInt8) : NoLonger (ofNat byte.toNat) "b''" := by
  -- It has three digits at most.
  have short : ∀ n < 256, (ofNat n).length ≤ 3 ∧ (ofNat n).utf8ByteSize ≤ 3 := by decide +kernel
  obtain ⟨length, bytes⟩ := short byte.toNat byte.toNat_lt
  exact ⟨length, bytes⟩

end Decimal

end Misfit
