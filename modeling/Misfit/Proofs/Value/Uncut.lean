import Misfit.Proofs.Text.NoLonger
import Misfit.Proofs.Value.Excerpt
import Misfit.Proofs.Value.Parts

/-! Values that are shown in full: so is then what can be seen inside. -/

namespace Misfit

namespace Value

/-- The text of an item is no longer than that of the value in which it is visible. -/
theorem noLonger_item (classes : Hierarchy) {value part : Value}
    (member : part ∈ value.items?.getD []) :
    NoLonger (part.text classes) (value.text classes) := by
  have item : ∀ {items : List Value}, part ∈ items →
      NoLonger (part.text classes) (", ".intercalate (itemTexts classes items)) := by
    intro items listed
    rw [itemTexts_eq_map]
    exact .intercalate _ (List.mem_map_of_mem listed)
  cases value with
  | str content =>
    -- A character has quotes of its own, like the whole text.
    obtain ⟨c, listed, rfl⟩ := List.mem_map.mp member
    have escaped : NoLonger (Quoted.escapeChar c)
        (String.join (content.toList.map Quoted.escapeChar)) :=
      .join (List.mem_map_of_mem listed)
    have quoted := ((NoLonger.refl "'").append escaped).append (.refl "'")
    simpa [text, Quoted.text, String.join] using quoted
  | bytes content =>
    obtain ⟨byte, _, rfl⟩ := List.mem_map.mp member
    have quotes : NoLonger "b''" (Quoted.bytes content) :=
      ((NoLonger.refl "b'").before _).append (.refl "'")
    exact (Decimal.noLonger_ofNat_byte byte).trans quotes
  | container kind items => exact ((item member).behind _).before _
  | itemsObject ref items => exact ((item member).behind _).before _
  | _ => simp [items?] at member

/-- The texts of a key and of what is stored under it are no longer than that of the value in which
they are visible. -/
theorem noLonger_entry (classes : Hierarchy) {value : Value} {entry : Value × Value}
    (member : entry ∈ value.pairs?.getD []) :
    NoLonger (entry.1.text classes) (value.text classes) ∧
      NoLonger (entry.2.text classes) (value.text classes) := by
  -- The text of the value lists its entries, and each of them shows its key and its value.
  have both : ∀ {entries : List (Value × Value)}, entry ∈ entries →
      NoLonger (entry.1.text classes) (", ".intercalate (entryTexts classes entries)) ∧
        NoLonger (entry.2.text classes) (", ".intercalate (entryTexts classes entries)) := by
    intro entries listed
    rw [entryTexts_eq_map]
    have whole := NoLonger.intercalate ", " (List.mem_map_of_mem (f := fun entry : Value × Value =>
      entry.1.text classes ++ ": " ++ entry.2.text classes) listed)
    exact ⟨.trans (((NoLonger.refl _).before _).before _) whole,
      .trans ((NoLonger.refl _).behind _) whole⟩
  cases value with
  | dict entries | entriesObject ref entries =>
    obtain ⟨key, stored⟩ := both member
    exact ⟨(key.behind _).before _, (stored.behind _).before _⟩
  | _ => simp [pairs?] at member

/-- The most bytes that a text takes in memory, where its size is a signed number of 64 bits. -/
def largestText : Nat := UInt64.size / 2 - 1

/-- Whether a value is shown in full under a limit of characters, and its text fits into memory. -/
def Uncut (classes : Hierarchy) (limit : Nat) (value : Value) : Prop :=
  (value.text classes).length ≤ limit ∧ (value.text classes).utf8ByteSize ≤ largestText

namespace Uncut

variable {classes : Hierarchy} {limit : Nat} {value : Value}

/-- What has no longer a text than a value that is shown in full is shown in full itself. -/
theorem of_noLonger {part : Value} (uncut : value.Uncut classes limit)
    (short : NoLonger (part.text classes) (value.text classes)) : part.Uncut classes limit :=
  -- Both limits are passed on to what has no longer a text.
  ⟨Nat.le_trans short.length uncut.1, Nat.le_trans short.bytes uncut.2⟩

/-- A value that is shown in full under a limit is so under every greater one. -/
theorem brief_eq (uncut : value.Uncut classes limit) {other : Nat} (enough : limit ≤ other) :
    value.brief classes other = value.text classes := by
  obtain ⟨length, bytes⟩ := uncut
  -- The text takes four bytes for each of its characters at most, so the budget is enough for it.
  have size := utf8ByteSize_ofList_le (value.text classes).toList
  rw [String.ofList_toList, String.length_toList] at size
  have largest : largestText ≤ largestBudget := by decide
  have whole : value.excerpt classes other = value.text classes :=
    appendText_eq_text classes (by omega)
  rw [brief, whole, cut_of_length_le (Nat.le_trans length enough)]

end Uncut

end Value

end Misfit
