import Misfit.Proofs.Text.AgreeBeyond
import Misfit.Value.Excerpt

/-! An excerpt has the beginning of the full text, and all of it where the budget lasts. -/

namespace Misfit

/-- The texts in turn, with `separator` before the first and a comma before each later one. -/
def separated (separator : String) : List String → String
  | [] => ""
  | text :: rest => separator ++ text ++ separated ", " rest

/-- Without a separator before the first text this is how texts are listed. -/
theorem separated_empty (texts : List String) :
    separated "" texts = ", ".intercalate texts := by
  -- Behind the first text, every further one brings its own comma.
  have general : ∀ (rest : List String) (first separator : String),
      separated separator (first :: rest) = separator ++ ", ".intercalate (first :: rest) := by
    intro rest
    induction rest with
    | nil => intro first separator; simp [separated]
    | cons second rest ih =>
      intro first separator
      rw [separated, ih, String.intercalate_cons_cons]
      simp only [String.append_assoc]
  cases texts with
  | nil => simp [separated]
  | cons first rest => rw [general, String.empty_append]

/-- Pieces appended within a budget agree with all pieces appended. -/
theorem appendWithin_agrees {α : Type} {budget : Nat} (piece : α → String) (items : List α)
    {out whole : String} (agree : AgreeBeyond budget out whole) :
    AgreeBeyond budget (appendWithin budget piece items out)
      (whole ++ String.join (items.map piece)) := by
  -- As long as the budget lasts both texts grow alike, and after that only the whole one grows.
  induction items generalizing out whole with
  | nil => simpa [appendWithin] using agree
  | cons item rest ih =>
    rw [appendWithin, List.map_cons, String.join_cons, ← String.append_assoc]
    split
    · next exceeded =>
      rw [String.append_assoc]
      exact agree.extend exceeded _
    · exact ih (agree.append (piece item))

namespace Value

/-- Nothing is appended to a text that exceeds the budget. -/
theorem appendText_of_exceeded (classes : Hierarchy) {budget : Nat} (value : Value) {out : String}
    (exceeded : budget < out.utf8ByteSize) : appendText classes budget value out = out := by
  -- The budget is asked about before anything is written.
  cases value <;> simp [appendText, exceeded]

mutual

/-- A value appended within a budget agrees with its full text appended. -/
theorem appendText_agrees (classes : Hierarchy) {budget : Nat} (value : Value)
    {out whole : String} (agree : AgreeBeyond budget out whole) :
    AgreeBeyond budget (appendText classes budget value out) (whole ++ value.text classes) := by
  by_cases exceeded : budget < out.utf8ByteSize
  · -- Nothing more is written, and what is passed over only extends the whole text.
    rw [appendText_of_exceeded _ _ exceeded]
    exact agree.extend exceeded _
  · -- Within the budget both texts grow by the same opening, by the parts, and by a closing.
    cases value with
    | none | bool truth | int number | float number =>
      simp only [appendText, exceeded, ↓reduceIte, text]
      exact agree.append _
    | str content =>
      -- The quotes are written even if the budget ends between them.
      simp only [appendText, exceeded, ↓reduceIte, text, Quoted.text, ← String.append_assoc]
      exact (appendWithin_agrees _ _ (agree.append "'")).append "'"
    | bytes content =>
      simp only [appendText, exceeded, ↓reduceIte, text, Quoted.bytes, ← String.append_assoc]
      exact (appendWithin_agrees _ _ (agree.append "b'")).append "'"
    | container kind items =>
      simp only [appendText, exceeded, ↓reduceIte, text, ← separated_empty, ← String.append_assoc]
      exact (appendItems_agrees classes "" items (agree.append _)).append _
    | dict entries =>
      simp only [appendText, exceeded, ↓reduceIte, text, ← separated_empty, ← String.append_assoc]
      exact appendEntries_agrees classes "" entries (agree.append _)
    | classObject ref | object ref =>
      simp only [appendText, exceeded, ↓reduceIte, text, ← String.append_assoc]
      exact ((agree.append _).append _).append _
    | itemsObject ref items =>
      simp only [appendText, exceeded, ↓reduceIte, text, ← separated_empty, ← String.append_assoc]
      exact (appendItems_agrees classes "" items ((agree.append _).append _)).append _
    | entriesObject ref entries =>
      -- The brace belongs to the entries and is left out with them, but the parenthesis is not.
      have brackets : "\x7d)" = "\x7d" ++ ")" := rfl
      simp only [appendText, exceeded, ↓reduceIte, text, ← separated_empty, brackets,
        ← String.append_assoc]
      exact (appendEntries_agrees classes "" entries
        ((agree.append _).append _)).append _

/-- Items appended within a budget agree with their full texts appended. -/
theorem appendItems_agrees (classes : Hierarchy) {budget : Nat} (separator : String)
    (items : List Value) {out whole : String} (agree : AgreeBeyond budget out whole) :
    AgreeBeyond budget (appendItems classes budget separator items out)
      (whole ++ separated separator (itemTexts classes items)) := by
  -- After the first item a comma takes the place of the separator.
  cases items with
  | nil => simpa [appendItems, itemTexts, separated] using agree
  | cons item rest =>
    rw [appendItems, itemTexts, separated]
    split
    · next exceeded => exact agree.extend exceeded _
    · simp only [← String.append_assoc]
      exact appendItems_agrees classes ", " rest
        (appendText_agrees classes item (agree.append separator))

/-- Entries appended within a budget agree with their full texts appended and closed. -/
theorem appendEntries_agrees (classes : Hierarchy) {budget : Nat} (separator : String)
    (entries : List (Value × Value)) {out whole : String}
    (agree : AgreeBeyond budget out whole) :
    AgreeBeyond budget (appendEntries classes budget separator entries out)
      (whole ++ separated separator (entryTexts classes entries) ++ "\x7d") := by
  -- The closing brace is written by the end of the list alone, so it is part of the claim here.
  cases entries with
  | nil => simpa [appendEntries, entryTexts, separated] using agree.append "\x7d"
  | cons entry rest =>
    obtain ⟨key, stored⟩ := entry
    rw [appendEntries, entryTexts, separated]
    split
    · next exceeded =>
      rw [String.append_assoc]
      exact agree.extend exceeded _
    · simp only [← String.append_assoc]
      -- The colon is written after the key even if the budget ended within it.
      exact appendEntries_agrees classes ", " rest (appendText_agrees classes stored
        ((appendText_agrees classes key (agree.append separator)).append ": "))

end

/-- A value appended to nothing is its full text, if the budget is enough for that. -/
theorem appendText_eq_text (classes : Hierarchy) {budget : Nat} {value : Value}
    (enough : (value.text classes).utf8ByteSize ≤ budget) :
    appendText classes budget value "" = value.text classes := by
  -- What is written can differ from the full text beyond the budget only.
  have start : AgreeBeyond budget "" "" := .refl ""
  have agree := appendText_agrees classes value start
  rw [String.empty_append] at agree
  exact agree.eq_of_le enough

/-- An excerpt agrees with the full text beyond four bytes for each of its characters. -/
theorem excerpt_agrees (classes : Hierarchy) (count : Nat) (value : Value) :
    AgreeBeyond (min (4 * count) largestBudget) (excerpt classes count value)
      (value.text classes) := by
  -- Both texts start from nothing, with nothing written beyond the budget yet.
  have start : AgreeBeyond (min (4 * count) largestBudget) "" "" := .refl ""
  have agree := appendText_agrees classes value start
  rwa [String.empty_append] at agree

/-- For a value whose full text takes no more bytes than the largest budget, an excerpt is cut to
the same text as the full one, begins with the same characters, and is the full text wherever that
takes at most four bytes for each character. -/
theorem brief_eq_cut_text (classes : Hierarchy) (value : Value) (limit : Nat)
    (fits : (value.text classes).utf8ByteSize ≤ largestBudget) :
    value.brief classes limit = cut limit (value.text classes) ∧
      (value.excerpt classes limit).toList.take limit =
        (value.text classes).toList.take limit ∧
      ((value.text classes).utf8ByteSize ≤ 4 * limit →
        value.excerpt classes limit = value.text classes) := by
  -- All three follow from the agreement beyond the budget, which is four bytes a character.
  have agree := excerpt_agrees classes limit value
  by_cases saturated : largestBudget ≤ 4 * limit
  · -- A saturated budget is still more than the full text takes.
    have same : value.excerpt classes limit = value.text classes :=
      agree.eq_of_le (by omega)
    rw [brief, same]
    exact ⟨rfl, rfl, fun _ => rfl⟩
  · have budget : min (4 * limit) largestBudget = 4 * limit := by omega
    rw [budget] at agree
    exact ⟨agree.cut_eq (Nat.le_refl _), agree.take_eq (Nat.le_refl _), agree.eq_of_le⟩

/-- A dictionary that is cut within the text of a key's list, beyond characters of several bytes. -/
theorem brief_eq_cut_text_nested :
    let value : Value := .dict [(.str "é'\n", .container .tuple [.bytes [0, 65], .none]),
      (.int 7, .entriesObject ⟨0⟩ [(.str "🙂", .container .set [])])]
    (value.text .initial).utf8ByteSize ≤ largestBudget ∧
      value.brief .initial 9 = cut 9 (value.text .initial) ∧
      (value.excerpt .initial 9).toList.take 9 = (value.text .initial).toList.take 9 ∧
      ((value.text .initial).utf8ByteSize ≤ 4 * 9 →
        value.excerpt .initial 9 = value.text .initial) := by
  -- The full text is far smaller than the largest budget.
  intro value
  have fits : (value.text .initial).utf8ByteSize ≤ largestBudget := by decide
  exact ⟨fits, brief_eq_cut_text .initial value 9 fits⟩

end Value

end Misfit
