import Misfit.Proofs.Text.OneLine

/-! The lines of a text: how they are moved together, and what they start with. -/

namespace Misfit

/-- The text with an indent put in after every line break. -/
def indentLines (indent text : String) : String :=
  String.ofList (text.toList.flatMap fun c => if c = '\n' then c :: indent.toList else [c])

/-- Two texts that follow each other are indented one by one. -/
@[simp] theorem indentLines_append (indent first second : String) :
    indentLines indent (first ++ second) =
      indentLines indent first ++ indentLines indent second := by
  -- Each character is replaced on its own.
  simp [indentLines]

/-- Joined texts are indented one by one. -/
theorem indentLines_join (indent : String) (texts : List String) :
    indentLines indent (String.join texts) = String.join (texts.map (indentLines indent)) := by
  -- The texts follow each other, so the first one is indented and then the rest.
  induction texts with
  | nil => simp [indentLines]
  | cons first rest ih => simp [ih]

/-- A text on one line is left as it is. -/
theorem OneLine.indentLines {text : String} (line : OneLine text) (indent : String) :
    indentLines indent text = text := by
  -- Every character stands for itself, as none of them is a line break.
  have general : ∀ chars : List Char, '\n' ∉ chars →
      (chars.flatMap fun c => if c = '\n' then c :: indent.toList else [c]) = chars := by
    intro chars without
    induction chars with
    | nil => rfl
    | cons c rest ih =>
      rw [List.mem_cons, not_or] at without
      rw [List.flatMap_cons, ih without.2, if_neg (Ne.symm without.1), List.singleton_append]
  rw [Misfit.indentLines, general _ line, String.ofList_toList]

/-- A line break is followed by the indent. -/
@[simp] theorem indentLines_lineBreak (indent : String) :
    indentLines indent "\n" = "\n" ++ indent := by
  -- A line break is the one character that is replaced.
  simp [indentLines]

/-- A property holds of what follows a line break, at every line break of a text. -/
def AfterLineBreaks (property : String → Prop) (text : String) : Prop :=
  ∀ before after, text = before ++ "\n" ++ after → property after

/-- What follows a line break is all that comes behind the first line, or comes behind a later line
break in that. -/
theorem OneLine.split {first rest before after : String} (head : OneLine first)
    (same : first ++ "\n" ++ rest = before ++ "\n" ++ after) :
    after = rest ∨ ∃ between, rest = between ++ "\n" ++ after := by
  -- Of the two ways to split one list of characters, one splits it no earlier than the other.
  have chars : first.toList ++ '\n' :: rest.toList = before.toList ++ '\n' :: after.toList := by
    simpa using congrArg String.toList same
  rcases List.append_eq_append_iff.mp chars with ⟨between, _, split⟩ | ⟨between, reached, split⟩
  · -- The line break in question is not inside the first line.
    cases between with
    | nil =>
      simp only [List.nil_append, List.cons.injEq, true_and] at split
      exact .inl (String.toList_inj.mp split.symm)
    | cons c between =>
      simp only [List.cons_append, List.cons.injEq] at split
      refine .inr ⟨String.ofList between, ?_⟩
      simp [← String.toList_inj, split.2]
  · -- Inside the first line there is no line break, so it ends at the one in question.
    cases between with
    | nil =>
      simp only [List.nil_append, List.cons.injEq, true_and] at split
      exact .inl (String.toList_inj.mp split)
    | cons c between =>
      simp only [List.cons_append, List.cons.injEq] at split
      have inside : '\n' ∈ first.toList := by simp [reached, ← split.1]
      exact absurd inside head

/-- What follows a line break in a text given by its lines starts with one of the later lines. -/
theorem afterLineBreaks_of_lines {first : String} {later : List String} (head : OneLine first)
    (each : ∀ line ∈ later, OneLine line) :
    AfterLineBreaks (fun after => ∃ line ∈ later, ∃ rest, after = line ++ rest)
      (first ++ String.join (later.map ("\n" ++ ·))) := by
  intro before after split
  -- Each line is passed over in turn, until the line break is the one before the next line.
  induction later generalizing first before with
  | nil =>
    -- There is no line break in the only line.
    rw [List.map_nil, String.join_nil, String.append_empty] at split
    have inside : '\n' ∈ first.toList := by simp [split]
    exact absurd inside head
  | cons line rest ih =>
    rw [List.map_cons, String.join_cons, String.append_assoc, ← String.append_assoc] at split
    rcases head.split split with found | ⟨between, further⟩
    · exact ⟨line, by simp, _, found⟩
    · obtain ⟨line', member, rest', found⟩ :=
        ih (each line (by simp)) (fun line' member => each line' (by simp [member])) _ further
      exact ⟨line', by simp [member], rest', found⟩

end Misfit
