import Misfit.Number.Positional
import Misfit.Text.Cut
import Misfit.Text.Disjunction
import Misfit.Text.Quoted

/-! Texts on one line, and those that stay on one line however they are built. -/

namespace Misfit

/-- A text without a line break. -/
def OneLine (text : String) : Prop := '\n' ∉ text.toList

instance (text : String) : Decidable (OneLine text) := inferInstanceAs (Decidable (_ ∉ _))

/-- Texts that follow each other are on one line exactly if both are. -/
@[simp] theorem oneLine_append {first second : String} :
    OneLine (first ++ second) ↔ OneLine first ∧ OneLine second := by
  -- A line break in the whole is one in either text.
  simp [OneLine]

/-- A text of given characters is on one line exactly if no line break is among them. -/
@[simp] theorem oneLine_ofList {chars : List Char} :
    OneLine (String.ofList chars) ↔ '\n' ∉ chars := by
  -- The text has these characters and no others.
  simp [OneLine]

/-- A single character is on one line unless it is a line break. -/
@[simp] theorem oneLine_singleton {c : Char} : OneLine (String.singleton c) ↔ c ≠ '\n' := by
  -- It is the only character of its text.
  simp [OneLine, eq_comm]

/-- Joined texts are on one line exactly if all of them are. -/
@[simp] theorem oneLine_join {texts : List String} :
    OneLine (String.join texts) ↔ ∀ text ∈ texts, OneLine text := by
  -- A line break in the whole is one in some text.
  simp [OneLine]

/-- Texts on one line are listed on one line, if what stands between them is on one line too. -/
theorem OneLine.intercalate {separator : String} (between : OneLine separator)
    {texts : List String} (each : ∀ text ∈ texts, OneLine text) :
    OneLine (separator.intercalate texts) := by
  -- Behind the first text, each comes with a separator before it.
  induction texts with
  | nil => simp [OneLine]
  | cons first rest ih =>
    have head := each first (by simp)
    have tail := ih fun text member => each text (by simp [member])
    cases rest with
    | nil => simpa using head
    | cons second rest =>
      rw [String.intercalate_cons_cons, oneLine_append, oneLine_append]
      exact ⟨⟨head, between⟩, tail⟩

/-- Alternatives on one line are joined on one line. -/
theorem OneLine.disjunction {texts : List String} (each : ∀ text ∈ texts, OneLine text) :
    OneLine (disjunction texts) := by
  -- There are no alternatives, one, two or more of them, each with separators of its own.
  fun_cases Misfit.disjunction texts with
  | case1 => decide
  | case2 only => exact each only (by simp)
  | case3 first second =>
    have or : OneLine " or " := by decide
    simp [each first (by simp), each second (by simp), or]
  | case4 first second third rest later =>
    have comma : OneLine ", " := by decide
    have or : OneLine ", or " := by decide
    have last := each (later.getLast (List.cons_ne_nil _ _)) (by simp [later])
    -- All alternatives but the last are separated by commas.
    have before : OneLine (", ".intercalate (first :: later.dropLast)) := by
      apply comma.intercalate
      intro text member
      rcases List.mem_cons.mp member with rfl | member
      · exact each text (by simp)
      · exact each text (List.mem_cons_of_mem _ (List.dropLast_subset _ member))
    rw [oneLine_append, oneLine_append]
    exact ⟨⟨before, or⟩, last⟩

/-- A text on one line stays on one line when it is cut. -/
theorem OneLine.cut {text : String} (whole : OneLine text) (limit : Nat) :
    OneLine (cut limit text) := by
  -- A text within the limit is not changed.
  unfold Misfit.cut
  split
  · exact whole
  · -- What is kept of the text has no line break, and the dots are none.
    rw [oneLine_ofList, List.mem_append, not_or]
    refine ⟨fun kept => whole (List.mem_of_mem_take kept), fun dots => ?_⟩
    cases List.eq_of_mem_replicate dots

/-- No digit is a line break. -/
theorem not_mem_digits (n : Nat) : '\n' ∉ Decimal.digits n := by
  -- All characters of a number are digits.
  intro member
  have digit := Nat.isDigit_of_mem_toDigits (by decide) (by decide) member
  simp at digit

/-- A natural number is written on one line. -/
theorem oneLine_ofNat (n : Nat) : OneLine (Decimal.ofNat n) :=
  -- It is written in digits.
  oneLine_ofList.mpr (not_mem_digits n)

/-- An integer is written on one line. -/
theorem oneLine_ofInt (number : Int) : OneLine (Decimal.ofInt number) := by
  -- A minus sign may stand before the digits.
  cases number with
  | ofNat n => exact oneLine_ofNat n
  | negSucc n =>
    have minus : OneLine "-" := by decide
    exact oneLine_append.mpr ⟨minus, oneLine_ofNat _⟩

/-- A decimal in positional notation is on one line. -/
theorem oneLine_positional (d : ShortDecimal) : OneLine d.positional := by
  -- Besides the digits there are zeros and a point.
  have zeros : ∀ count, '\n' ∉ List.replicate count '0' := fun count member =>
    nomatch List.eq_of_mem_replicate member
  have digits := not_mem_digits d.coefficient
  unfold ShortDecimal.positional
  split
  · simp [digits, zeros]
  · next further _ =>
    rw [oneLine_ofList, List.mem_append, List.mem_cons]
    -- The point stands between two pieces of one row of digits.
    have padded : '\n' ∉ List.replicate (further + 1 + 1 - (Decimal.digits d.coefficient).length)
        '0' ++ Decimal.digits d.coefficient := by simp [digits, zeros]
    rintro (whole | point | decimals)
    · exact padded (List.mem_of_mem_take whole)
    · cases point
    · exact padded (List.mem_of_mem_drop decimals)

/-- A floating-point number is written on one line. -/
theorem oneLine_float (f : Binary64) : OneLine f.text := by
  rcases f.text_cases with same | ⟨unsigned, spelled, signed⟩
  · rw [same]
    decide
  · -- Behind the sign there are digits, perhaps with a point, or a word.
    have line : OneLine unsigned := by
      cases spelled with
      | infinite => decide
      | whole n => exact oneLine_append.mpr ⟨oneLine_ofNat n, by decide⟩
      | decimal d => exact oneLine_positional d
    rcases signed with same | same
    · rwa [same]
    · rw [same]
      exact oneLine_append.mpr ⟨by decide, line⟩

/-- An escaped character stands on one line. -/
theorem oneLine_escapeChar (c : Char) : OneLine (Quoted.escapeChar c) := by
  -- The line break is one of the characters with an escape of their own.
  unfold Quoted.escapeChar
  split
  iterate 5 decide
  · next other _ _ => simpa using other

/-- No digit of base sixteen is a line break. -/
theorem hexDigit_ne : ∀ n < 16, Quoted.hexDigit n ≠ '\n' := by
  -- There are sixteen of them.
  decide

/-- An escaped byte stands on one line. -/
theorem oneLine_escapeByte (byte : UInt8) : OneLine (Quoted.escapeByte byte) := by
  -- A byte is written as a character, or in two digits of base sixteen.
  unfold Quoted.escapeByte
  dsimp only
  split
  · exact oneLine_escapeChar _
  · next plain =>
    split
    · -- A line break would have had an escape of its own.
      rw [oneLine_singleton]
      intro lineBreak
      simp [lineBreak] at plain
    · -- Both halves of a byte are digits.
      have bound := byte.toNat_lt
      have high := hexDigit_ne (byte.toNat / 16) (by omega)
      have low := hexDigit_ne (byte.toNat % 16) (by omega)
      rw [oneLine_ofList]
      simp [high.symm, low.symm]

end Misfit
