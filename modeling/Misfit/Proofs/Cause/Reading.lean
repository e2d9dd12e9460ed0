import Misfit.Proofs.Cause.Outline
import Misfit.Proofs.Runs

/-! An outline whose lines are unbroken is read back from its text, whatever the indent, if bullets
are indented by something other than asterisks. -/

namespace Misfit

attribute [ext] Bullet Outline

/-- How often a block without asterisks is repeated is told by where the first asterisk stands. -/
theorem replicate_inj_of_asterisk {block : List Char} (nonempty : block ≠ []) (plain : '*' ∉ block)
    {count count' : Nat} {rest other : List Char}
    (same : (List.replicate count block).flatten ++ '*' :: rest =
      (List.replicate count' block).flatten ++ '*' :: other) : count = count' ∧ rest = other := by
  -- Up to the first asterisk both lists are the same blocks.
  have run : ∀ count, ∀ c ∈ (List.replicate count block).flatten, (c != '*') = true := by
    intro count c member
    obtain ⟨piece, repeated, inside⟩ := List.mem_flatten.mp member
    rw [List.eq_of_mem_replicate repeated] at inside
    simpa using fun asterisk : c = '*' => plain (asterisk ▸ inside)
  obtain ⟨blocks, following⟩ :=
    append_inj_of_run (run count) (run count') (.cons rfl _) (.cons rfl _) same
  -- A block has some length, so equally long lists of them have equally many.
  have lengths := congrArg List.length blocks
  simp only [List.length_flatten, List.map_replicate, List.sum_replicate_nat] at lengths
  have positive := List.length_pos_iff.mpr nonempty
  exact ⟨Nat.eq_of_mul_eq_mul_right positive lengths, (List.cons.inj following).2⟩

/-- Two texts on one line are the same, and what follows them, if a line break follows or
nothing. -/
theorem OneLine.append_inj {first second : String} (line : OneLine first) (line' : OneLine second)
    {rest other : List Char} (ends : Ends (· != '\n') rest) (ends' : Ends (· != '\n') other)
    (same : first.toList ++ rest = second.toList ++ other) : first = second ∧ rest = other := by
  -- Both texts are the run of characters before the first line break.
  have run : ∀ {text : String}, OneLine text → ∀ c ∈ text.toList, (c != '\n') = true := by
    intro text line c member
    simpa using fun lineBreak : c = '\n' => line (lineBreak ▸ member)
  obtain ⟨chars, following⟩ := append_inj_of_run (run line) (run line') ends ends' same
  exact ⟨String.toList_inj.mp chars, following⟩

namespace Outline

/-- The headline and the texts of the bullets are each on one line. -/
structure Unbroken (outline : Outline) : Prop where
  headline : OneLine outline.headline
  bullets : ∀ bullet ∈ outline.bullets, OneLine bullet.text

/-- The lines of a well-formed outline are unbroken. -/
theorem WellFormed.unbroken {outline : Outline} (formed : outline.WellFormed) :
    outline.Unbroken where
  -- Of what is asked of a bullet, one thing is that its text is on one line.
  headline := formed.headline
  bullets := fun bullet member => (formed.bullets bullet member).2

variable {bulletIndent indent : String}

/-- The characters of bulleted lines, each behind a line break. -/
def lineChars (bulletIndent indent : String) (bullets : List Bullet) : List Char :=
  bullets.flatMap fun bullet => '\n' :: (bullet.line bulletIndent indent).toList

/-- The characters of an outline are those of its headline and of the lines below. -/
theorem toList_text (outline : Outline) : (outline.text bulletIndent indent).toList =
    outline.headline.toList ++ lineChars bulletIndent indent outline.bullets := by
  -- Each line below the headline comes with the line break before it.
  have below : ∀ bullets : List Bullet,
      (String.join ((bullets.map (Bullet.line bulletIndent indent)).map ("\n" ++ ·))).toList =
        lineChars bulletIndent indent bullets := by
    intro bullets
    simp [lineChars, List.flatMap_map]
  rw [text, String.toList_append, lines, below]

/-- Bulleted lines end the line that they follow. -/
theorem ends_lineChars (bullets : List Bullet) :
    Ends (· != '\n') (lineChars bulletIndent indent bullets) := by
  -- The first of them starts with a line break.
  cases bullets with
  | nil => simp [Ends, lineChars]
  | cons bullet rest => exact .cons (by decide) _

/-- Bullets with one-line texts are determined by their lines. -/
theorem bullets_eq_of_lineChars_eq (nonempty : bulletIndent ≠ "")
    (plain : '*' ∉ bulletIndent.toList) {bullets others : List Bullet}
    (each : ∀ bullet ∈ bullets, OneLine bullet.text)
    (each' : ∀ bullet ∈ others, OneLine bullet.text)
    (same : lineChars bulletIndent indent bullets = lineChars bulletIndent indent others) :
    bullets = others := by
  -- The first lines agree in depth and text, and leave the same lines to compare.
  induction bullets generalizing others with
  | nil =>
    cases others with
    | nil => rfl
    | cons other others => cases same
  | cons bullet bullets ih =>
    cases others with
    | nil => cases same
    | cons other others =>
      -- A line is told piece by piece: the indent, how often it is deepened, and the text.
      have split : ∀ (bullet : Bullet) (rest : List Bullet),
          lineChars bulletIndent indent (bullet :: rest) =
            '\n' :: (indent.toList ++
              ((List.replicate bullet.depth bulletIndent.toList).flatten ++
                '*' :: ' ' :: (bullet.text.toList ++ lineChars bulletIndent indent rest))) := by
        intro bullet rest
        simp [lineChars, Bullet.line, List.flatMap_replicate]
      rw [split, split, List.cons.injEq, List.append_cancel_left_eq] at same
      obtain ⟨depth, same⟩ := replicate_inj_of_asterisk (by simpa using nonempty) plain same.2
      rw [List.cons.injEq] at same
      -- The text ends where the next line starts, and what follows is told by induction.
      obtain ⟨text, later⟩ := OneLine.append_inj (each bullet (by simp)) (each' other (by simp))
        (ends_lineChars bullets) (ends_lineChars others) same.2
      have rest := ih (fun bullet member => each bullet (by simp [member]))
        (fun bullet member => each' bullet (by simp [member])) later
      rw [Bullet.ext depth text, rest]

/-- An outline with unbroken lines is determined by its text. -/
theorem Unbroken.eq_of_text_eq (nonempty : bulletIndent ≠ "") (plain : '*' ∉ bulletIndent.toList)
    {outline other : Outline} (lines : outline.Unbroken) (lines' : other.Unbroken)
    (same : outline.text bulletIndent indent = other.text bulletIndent indent) :
    outline = other := by
  -- The headline ends at the first line break, and behind it there are bulleted lines only.
  have chars := congrArg String.toList same
  rw [toList_text, toList_text] at chars
  obtain ⟨headline, below⟩ := OneLine.append_inj lines.headline lines'.headline
    (ends_lineChars _) (ends_lineChars _) chars
  have bullets := bullets_eq_of_lineChars_eq nonempty plain lines.bullets lines'.bullets below
  exact Outline.ext headline bullets

end Outline

end Misfit
