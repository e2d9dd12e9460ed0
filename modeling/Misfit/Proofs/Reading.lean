import Misfit.Proofs.Runs

/-! Things that are told by what is written of them, even with more written behind. -/

namespace Misfit

variable {α : Type}

/-- Two things are read back from what is written of them: followed by characters that end a run,
they are written alike only if they are the same, and the same follows. -/
def ReadsBack (p : Char → Bool) (write : α → List Char) (a b : α) : Prop :=
  ∀ ⦃rest other : List Char⦄, Ends p rest → Ends p other →
    write a ++ rest = write b ++ other → a = b ∧ rest = other

/-- What is written of a thing does not start a list. -/
def Apart (write : α → List Char) (chars : List Char) (a : α) : Prop :=
  ∀ rest, write a ++ rest ≠ chars

/-- Things in a row end a run if each of them does, and what follows them too. -/
theorem ends_flatMap {p : Char → Bool} {write : α → List Char}
    (starts : ∀ item rest, Ends p (write item ++ rest)) (items : List α) {close : List Char}
    (ends : Ends p close) : Ends p (items.flatMap write ++ close) := by
  -- The first thing of the row ends the run, or what follows an empty row does.
  cases items with
  | nil => exact ends
  | cons item rest =>
    rw [List.flatMap_cons, List.append_assoc]
    exact starts item _

/-- A later item of a list, with the comma and the space before it. -/
def laterItem (write : α → List Char) (item : α) : List Char := ',' :: ' ' :: write item

/-- The items of a list, with commas between them. -/
def listed (write : α → List Char) : List α → List Char
  | [] => []
  | first :: later => write first ++ later.flatMap (laterItem write)

/-- Texts with commas between them are listed. -/
theorem toList_intercalate (write : α → String) (items : List α) :
    (", ".intercalate (items.map write)).toList =
      listed (fun item => (write item).toList) items := by
  -- The first text stands alone, and all others behind a separator.
  cases items with
  | nil => rfl
  | cons first later =>
    -- Behind the first text, each comes with a comma before it.
    induction later generalizing first with
    | nil => simp [listed]
    | cons second later ih =>
      have tail := ih second
      rw [List.map_cons] at tail
      rw [List.map_cons, List.map_cons, String.intercalate_cons_cons, String.toList_append, tail]
      simp [listed, laterItem]

/-- What follows a list of things closes it: it ends the last of them, and starts neither with a
further one nor with the comma before one. -/
structure Closes (p : Char → Bool) (write : α → List Char) (items : List α) (close : List Char) :
    Prop where
  ends : Ends p close
  noComma : ∀ rest, ',' :: ' ' :: rest ≠ close
  apart : ∀ item ∈ items, Apart write close item

namespace ReadsBack

variable {p : Char → Bool} {write : α → List Char} {a b : α}

/-- Reading back does not depend on the order of the two. -/
theorem symm (reads : ReadsBack p write a b) : ReadsBack p write b a := by
  intro rest other ends ends' same
  -- The two and what follows them change places.
  obtain ⟨rfl, following⟩ := reads ends' ends same.symm
  exact ⟨rfl, following.symm⟩

/-- What a reader takes from the front of every list is read back. -/
theorem of_reader {read : List Char → Option (α × List Char)}
    (reads : ∀ a rest, read (write a ++ rest) = some (a, rest)) (a b : α) :
    ReadsBack p write a b := by
  intro rest other _ _ same
  -- From the same list the reader takes the same thing, and leaves the same.
  have taken := congrArg read same
  rw [reads, reads] at taken
  simpa using taken

/-- Things that are read back one by one are read back in a row, if what follows the row does not
start with one of them. -/
theorem flatMap {items others : List α}
    (each : ∀ item ∈ items, ∀ other ∈ others, ReadsBack p write item other)
    (starts : ∀ item rest, Ends p (write item ++ rest)) {close close' : List Char}
    (ends : Ends p close) (ends' : Ends p close')
    (apart : ∀ other ∈ others, Apart write close other)
    (apart' : ∀ item ∈ items, Apart write close' item)
    (same : items.flatMap write ++ close = others.flatMap write ++ close') :
    items = others ∧ close = close' := by
  -- The first of both rows is read back, as what follows it ends a run.
  induction items generalizing others with
  | nil =>
    cases others with
    | nil => exact ⟨rfl, same⟩
    | cons other others =>
      -- What follows an empty row would start with the first of the other.
      rw [List.flatMap_cons, List.append_assoc] at same
      exact absurd same.symm (apart other (by simp) _)
  | cons item items ih =>
    rw [List.flatMap_cons, List.append_assoc] at same
    cases others with
    | nil => exact absurd same (apart' item (by simp) _)
    | cons other others =>
      rw [List.flatMap_cons, List.append_assoc] at same
      -- The first things are the same, and what follows them is told by induction.
      obtain ⟨rfl, later⟩ := each item (by simp) other (by simp) (ends_flatMap starts items ends)
        (ends_flatMap starts others ends') same
      obtain ⟨rfl, closed⟩ := ih
        (fun item member other member' => each item (by simp [member]) other (by simp [member']))
        (fun other member => apart other (by simp [member]))
        (fun item member => apart' item (by simp [member])) later
      exact ⟨rfl, closed⟩

/-- Things that are read back one by one are read back from a list, if what follows closes it. -/
theorem listed {items others : List α}
    (each : ∀ item ∈ items, ∀ other ∈ others, ReadsBack p write item other)
    (comma : p ',' = false) {close close' : List Char} (closes : Closes p write others close)
    (closes' : Closes p write items close')
    (same : listed write items ++ close = listed write others ++ close') :
    items = others ∧ close = close' := by
  -- The comma before a later item ends the item that it follows.
  have starts : ∀ item rest, Ends p (laterItem write item ++ rest) := fun _ _ => .cons comma _
  cases items with
  | nil =>
    cases others with
    | nil => exact ⟨rfl, same⟩
    | cons other others =>
      rw [Misfit.listed, Misfit.listed, List.append_assoc] at same
      exact absurd same.symm (closes.apart other (by simp) _)
  | cons item items =>
    rw [Misfit.listed, List.append_assoc] at same
    cases others with
    | nil => exact absurd same (closes'.apart item (by simp) _)
    | cons other others =>
      rw [Misfit.listed, List.append_assoc] at same
      obtain ⟨rfl, later⟩ := each item (by simp) other (by simp)
        (ends_flatMap starts items closes.ends) (ends_flatMap starts others closes'.ends) same
      -- Behind the first item, the later ones are in a row, each with its comma.
      have row : ∀ item ∈ items, ∀ other ∈ others, ReadsBack p (laterItem write) item other := by
        intro item member other member' rest rest' ends ends' same
        simp only [laterItem, List.cons_append, List.cons.injEq, true_and] at same
        exact each item (by simp [member]) other (by simp [member']) ends ends' same
      obtain ⟨rfl, closed⟩ := flatMap row starts closes.ends closes'.ends
        (fun _ _ _ => closes.noComma _) (fun _ _ _ => closes'.noComma _) later
      exact ⟨rfl, closed⟩

end ReadsBack

end Misfit
