import Misfit.Number.Decimal
import Misfit.Proofs.Reading
import Misfit.Text.Quoted

/-! Numbers, quoted texts and byte sequences are told by what is written of them. -/

namespace Misfit

/-- No run of any kind. -/
def noRun : Char → Bool := fun _ => false

/-- Every list ends no run. -/
theorem ends_noRun (rest : List Char) : Ends noRun rest :=
  -- No character is in such a run.
  fun _ _ => rfl

namespace Decimal

/-- A number is read back from its digits, if no digit follows. -/
theorem readsBack_digits (m n : Nat) : ReadsBack Char.isDigit digits m n := by
  intro rest other ends ends' same
  -- The digits are the run that both lists start with.
  have run : ∀ n, ∀ c ∈ digits n, c.isDigit = true :=
    fun n _ member => Nat.isDigit_of_mem_toDigits (by decide) (by decide) member
  obtain ⟨alike, following⟩ := append_inj_of_run (run m) (run n) ends ends' same
  -- They add up to the number.
  have value := congrArg (Nat.ofDigitChars 10 · 0) alike
  simp only [digits, Nat.ofDigitChars_ten_toDigits] at value
  exact ⟨value, following⟩

/-- A number starts with a digit. -/
theorem digits_eq_cons (n : Nat) : ∃ c later, c.isDigit = true ∧ digits n = c :: later := by
  -- Every number has some digit.
  obtain ⟨c, later, first⟩ := List.exists_cons_of_ne_nil (Nat.toDigits_ne_nil (n := n) (b := 10))
  have digit : c.isDigit = true :=
    Nat.isDigit_of_mem_toDigits (b := 10) (n := n) (by decide) (by decide) (by simp [first])
  exact ⟨c, later, digit, first⟩

/-- A number does not start with a minus sign. -/
theorem digits_append_ne_minus (n : Nat) (rest other : List Char) :
    digits n ++ rest ≠ '-' :: other := by
  -- A minus sign is no digit.
  intro same
  obtain ⟨c, later, digit, first⟩ := digits_eq_cons n
  rw [first, List.cons_append, List.cons.injEq] at same
  rw [same.1] at digit
  cases digit

/-- An integer is read back from its sign and digits, if no digit follows. -/
theorem readsBack_ofInt (a b : Int) :
    ReadsBack Char.isDigit (fun number => (ofInt number).toList) a b := by
  intro rest other ends ends' same
  -- Signs are told first: a number without one starts with a digit.
  cases a with
  | ofNat m =>
    cases b with
    | ofNat n =>
      simp only [ofInt, ofNat, String.toList_ofList] at same
      obtain ⟨rfl, following⟩ := readsBack_digits m n ends ends' same
      exact ⟨rfl, following⟩
    | negSucc n =>
      simp only [ofInt, ofNat, String.toList_ofList, String.toList_append] at same
      exact absurd same (digits_append_ne_minus m _ _)
  | negSucc m =>
    cases b with
    | ofNat n =>
      simp only [ofInt, ofNat, String.toList_ofList, String.toList_append] at same
      exact absurd same.symm (digits_append_ne_minus n _ _)
    | negSucc n =>
      simp only [ofInt, ofNat, String.toList_ofList, String.toList_append, List.append_assoc,
        List.append_cancel_left_eq] at same
      -- Behind both signs the numbers are read as those without.
      obtain ⟨magnitude, following⟩ := readsBack_digits (m + 1) (n + 1) ends ends' same
      exact ⟨by rw [Nat.succ.inj magnitude], following⟩

end Decimal

namespace Quoted

/-- The character that a letter behind a backslash names. -/
def named : Char → Char
  | 'n' => '\n'
  | 'r' => '\r'
  | 't' => '\t'
  | c => c

/-- Takes a character from the front of a quoted text. -/
def readChar : List Char → Option (Char × List Char)
  | '\\' :: letter :: rest => some (named letter, rest)
  | c :: rest => some (c, rest)
  | [] => none

/-- The value of a digit of base sixteen. -/
def hexValue (c : Char) : Nat := if c.isDigit then c.toNat - '0'.toNat else c.toNat - 'a'.toNat + 10

/-- Takes a byte from the front of a quoted byte sequence. -/
def readByte : List Char → Option (UInt8 × List Char)
  | '\\' :: 'x' :: high :: low :: rest =>
    some (.ofNat (16 * hexValue high + hexValue low), rest)
  | chars => (readChar chars).map fun (c, rest) => (.ofNat c.toNat, rest)

/-- An escaped character stands for itself, or is named by a letter that is no `x`. -/
theorem toList_escapeChar (c : Char) :
    (escapeChar c).toList = [c] ∧ c ≠ '\\' ∧ c ≠ '\'' ∨
      ∃ letter, (escapeChar c).toList = ['\\', letter] ∧ letter ≠ 'x' ∧ named letter = c := by
  -- The five characters with a name come first, and all others stand for themselves.
  unfold escapeChar
  split
  · exact .inr ⟨'\\', rfl, by decide, rfl⟩
  · exact .inr ⟨'\'', rfl, by decide, rfl⟩
  · exact .inr ⟨'n', rfl, by decide, rfl⟩
  · exact .inr ⟨'r', rfl, by decide, rfl⟩
  · exact .inr ⟨'t', rfl, by decide, rfl⟩
  · next backslash quote _ _ _ => exact .inl ⟨String.toList_singleton _, backslash, quote⟩

/-- What was written of a character is taken from the front as that character. -/
theorem readChar_escapeChar (c : Char) (rest : List Char) :
    readChar ((escapeChar c).toList ++ rest) = some (c, rest) := by
  -- The reader asks for a backslash, and that stands only before the letters of named characters.
  rcases toList_escapeChar c with ⟨written, backslash, _⟩ | ⟨letter, written, _, names⟩
  · -- Without a backslash the first character is the one that was written.
    rw [written]
    simp [readChar, backslash]
  · rw [written, ← names]
    rfl

/-- A digit of base sixteen has the value that it was written for. -/
theorem hexValue_hexDigit : ∀ n < 16, hexValue (hexDigit n) = n := by
  -- There are sixteen of them.
  decide

/-- A character that a byte stands for is taken from the front as that byte. -/
theorem readByte_escapeChar (c : Char) (rest : List Char) :
    readByte ((escapeChar c).toList ++ rest) = some (.ofNat c.toNat, rest) := by
  have taken := readChar_escapeChar c rest
  -- Only a backslash and an `x` would be taken for digits of base sixteen.
  rcases toList_escapeChar c with ⟨written, backslash, _⟩ | ⟨letter, written, other, _⟩
  · rw [written] at taken ⊢
    simp only [List.singleton_append] at taken ⊢
    rw [readByte, taken]
    · rfl
    · simp [backslash]
  · -- The letters for named characters are others.
    rw [written] at taken ⊢
    simp only [List.cons_append, List.nil_append] at taken ⊢
    rw [readByte, taken]
    · rfl
    · simp [other]

/-- A byte is written as the character with its number would be, or as two digits of base
sixteen. -/
theorem escapeByte_cases (byte : UInt8) :
    escapeByte byte = escapeChar (Char.ofNat byte.toNat) ∨
      (escapeByte byte).toList =
        ['\\', 'x', hexDigit (byte.toNat / 16), hexDigit (byte.toNat % 16)] := by
  -- The cases of the definition are gone through in their order.
  unfold escapeByte
  dsimp only
  split
  · exact .inl rfl
  · next plain =>
    split
    · -- A printable byte is none of those with a name, so its character stands for itself.
      left
      unfold escapeChar
      split
      iterate 5 simp_all
      rfl
    · exact .inr String.toList_ofList

/-- The character with the number of a byte has that number. -/
theorem ofNat_toNat_ofNat (byte : UInt8) : UInt8.ofNat (Char.ofNat byte.toNat).toNat = byte := by
  -- All numbers below those of surrogates are numbers of characters.
  have bound := byte.toNat_lt
  have valid : byte.toNat.isValidChar := Or.inl (by omega)
  have found : Char.ofNat byte.toNat = Char.ofNatAux byte.toNat valid := dif_pos valid
  rw [found]
  exact UInt8.ofNat_toNat

/-- What was written of a byte is taken from the front as that byte. -/
theorem readByte_escapeByte (byte : UInt8) (rest : List Char) :
    readByte ((escapeByte byte).toList ++ rest) = some (byte, rest) := by
  -- A byte in the form of a character is read as that, and one in two digits by their values.
  rcases escapeByte_cases byte with written | written
  · rw [written, readByte_escapeChar, ofNat_toNat_ofNat]
  · -- The two digits are the halves of the byte.
    have bound := byte.toNat_lt
    have halves : 16 * (byte.toNat / 16) + byte.toNat % 16 = byte.toNat := by omega
    rw [written]
    simp only [List.cons_append, List.nil_append, readByte]
    rw [hexValue_hexDigit _ (by omega), hexValue_hexDigit _ (by omega), halves, UInt8.ofNat_toNat]

/-- No escape starts with a quote. -/
theorem escapeChar_apart (c : Char) (rest : List Char) :
    Apart (fun c => (escapeChar c).toList) ('\'' :: rest) c := by
  -- A quote inside is written behind a backslash.
  intro more same
  rcases toList_escapeChar c with ⟨written, _, quote⟩ | ⟨letter, written, _, _⟩
  · simp only [written, List.singleton_append, List.cons.injEq] at same
    exact quote same.1
  · simp [written] at same

/-- No escape of a byte starts with a quote. -/
theorem escapeByte_apart (byte : UInt8) (rest : List Char) :
    Apart (fun byte => (escapeByte byte).toList) ('\'' :: rest) byte := by
  -- Characters are written apart from the quote, and digits behind a backslash.
  intro more same
  rcases escapeByte_cases byte with written | written
  · dsimp only at same
    rw [written] at same
    exact escapeChar_apart _ rest _ same
  · simp [written] at same

/-- Escapes in a row, with a quote behind them, are told by a reader for one of them. -/
theorem eq_of_escapes {α : Type} {escape : α → String}
    {read : List Char → Option (α × List Char)}
    (reads : ∀ a rest, read ((escape a).toList ++ rest) = some (a, rest))
    (apart : ∀ a rest, Apart (fun a => (escape a).toList) ('\'' :: rest) a) {items others : List α}
    {rest other : List Char}
    (same : (items.flatMap fun a => (escape a).toList) ++ '\'' :: rest =
      (others.flatMap fun a => (escape a).toList) ++ '\'' :: other) :
    items = others ∧ rest = other := by
  -- An escape has an end of its own, so no run has to end behind it.
  have one_by_one : ∀ a ∈ items, ∀ b ∈ others, ReadsBack noRun (fun a => (escape a).toList) a b :=
    fun a _ b _ => .of_reader reads a b
  obtain ⟨row, closed⟩ := ReadsBack.flatMap one_by_one (fun _ _ => ends_noRun _) (ends_noRun _)
    (ends_noRun _) (fun a _ => apart a _) (fun a _ => apart a _) same
  exact ⟨row, (List.cons.inj closed).2⟩

/-- A text is read back from between its quotes, whatever follows. -/
theorem readsBack_text (p : Char → Bool) (a b : String) :
    ReadsBack p (fun content => (text content).toList) a b := by
  -- The escapes are read one by one, up to the quote that is none of them.
  intro rest other _ _ same
  simp only [text, String.toList_append, String.toList_join, List.flatMap_map, List.append_assoc,
    List.append_cancel_left_eq] at same
  obtain ⟨chars, following⟩ := eq_of_escapes readChar_escapeChar escapeChar_apart same
  exact ⟨String.toList_inj.mp chars, following⟩

/-- A byte sequence is read back from between its quotes, whatever follows. -/
theorem readsBack_bytes (p : Char → Bool) (a b : List UInt8) :
    ReadsBack p (fun content => (bytes content).toList) a b := by
  -- The escapes are read one by one, up to the quote that is none of them.
  intro rest other _ _ same
  simp only [bytes, String.toList_append, String.toList_join, List.flatMap_map, List.append_assoc,
    List.append_cancel_left_eq] at same
  exact eq_of_escapes readByte_escapeByte escapeByte_apart same

end Quoted

end Misfit
