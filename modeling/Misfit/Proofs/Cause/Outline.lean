import Misfit.Cause.Text
import Misfit.Proofs.Hint.OneLine
import Misfit.Proofs.Text.Lines

/-! The outline of a cause: what its lines say and how deep they stand, whatever the indent. -/

namespace Misfit

/-- A bulleted line, with the number of bullet indents before it. -/
structure Bullet where
  depth : Nat
  text : String

/-- A headline and the bulleted lines below it. -/
structure Outline where
  headline : String
  bullets : List Bullet

/-- A bulleted line behind an indent. -/
def Bullet.line (bulletIndent indent : String) (bullet : Bullet) : String :=
  indent ++ String.join (List.replicate bullet.depth bulletIndent) ++ "* " ++ bullet.text

/-- Every line of a text but the first starts with an indent, at least one bullet indent, and an
asterisk. -/
def BulletedBelow (bulletIndent indent : String) (text : String) : Prop :=
  AfterLineBreaks (fun after => ∃ depth rest, 0 < depth ∧
    after = indent ++ String.join (List.replicate depth bulletIndent) ++ "* " ++ rest) text

namespace Outline

/-- The lines below the headline, each behind an indent. -/
def lines (bulletIndent indent : String) (outline : Outline) : List String :=
  outline.bullets.map (Bullet.line bulletIndent indent)

/-- The text of an outline whose later lines start at `indent`. -/
def text (bulletIndent indent : String) (outline : Outline) : String :=
  outline.headline ++ String.join ((outline.lines bulletIndent indent).map ("\n" ++ ·))

/-- A headline without bullets. -/
def plain (headline : String) : Outline := ⟨headline, []⟩

/-- The outline with words before its headline. -/
def after (words : String) (outline : Outline) : Outline :=
  { outline with headline := words ++ outline.headline }

/-- The outline with each bullet one level deeper. -/
def deeper (outline : Outline) : Outline :=
  { outline with bullets := outline.bullets.map fun bullet => ⟨bullet.depth + 1, bullet.text⟩ }

/-- A headline with an outline at each bullet of the first level below it. -/
def under (headline : String) (outlines : List Outline) : Outline where
  headline := headline
  bullets := outlines.flatMap fun outline => ⟨1, outline.headline⟩ :: outline.deeper.bullets

/-- A headline without bullets is all that is written. -/
theorem text_plain (bulletIndent indent headline : String) :
    (plain headline).text bulletIndent indent = headline := by
  -- There are no lines to write below it.
  simp [text, plain, lines]

/-- Words before the headline stand before the whole text. -/
theorem text_after (bulletIndent indent words : String) (outline : Outline) :
    (outline.after words).text bulletIndent indent =
      words ++ outline.text bulletIndent indent :=
  -- The lines below follow the headline, whatever stands before it.
  String.append_assoc

/-- Deeper bullets are written as if one bullet indent more belonged to the indent. -/
theorem lines_deeper (bulletIndent indent : String) (outline : Outline) :
    outline.deeper.lines bulletIndent indent =
      outline.lines bulletIndent (indent ++ bulletIndent) := by
  -- The first of the repeated bullet indents follows the indent directly.
  simp [lines, deeper, Bullet.line, List.replicate_succ, String.append_assoc]

/-- An outline with deeper bullets is written as if the indent had a bullet indent more. -/
theorem text_deeper (bulletIndent indent : String) (outline : Outline) :
    outline.deeper.text bulletIndent indent =
      outline.text bulletIndent (indent ++ bulletIndent) := by
  -- The lines change and the headline does not.
  rw [text, lines_deeper, text, deeper]

/-- The lines below a headline are those of the outlines at its bullets, each with the line of the
bullet before it. -/
theorem lines_under (bulletIndent indent headline : String) (outlines : List Outline) :
    (under headline outlines).lines bulletIndent indent =
      outlines.flatMap fun outline =>
        Bullet.line bulletIndent indent ⟨1, outline.headline⟩ ::
          outline.lines bulletIndent (indent ++ bulletIndent) := by
  -- One outline brings a bullet for its headline, and its own bullets one level deeper.
  have each : ∀ outline : Outline,
      (⟨1, outline.headline⟩ :: outline.deeper.bullets).map (Bullet.line bulletIndent indent) =
        Bullet.line bulletIndent indent ⟨1, outline.headline⟩ ::
          outline.lines bulletIndent (indent ++ bulletIndent) := by
    intro outline
    rw [List.map_cons, ← lines_deeper, lines]
  rw [lines, under, List.map_flatMap]
  exact congrArg (List.flatMap · outlines) (funext each)

/-- Outlines below a headline are written one level deeper, each behind a bullet. -/
theorem text_under (bulletIndent indent headline : String) (outlines : List Outline) :
    (under headline outlines).text bulletIndent indent =
      bulleted headline (indent ++ bulletIndent)
        (outlines.map (text bulletIndent (indent ++ bulletIndent))) := by
  -- By induction on the outlines, each of which is a bullet with its own lines below.
  rw [bulleted, text, lines_under]
  congr 1
  induction outlines with
  | nil => rfl
  | cons first rest ih =>
    -- The bullet of the first headline and the lines behind it make up the text of that outline.
    have head : String.join ((Bullet.line bulletIndent indent ⟨1, first.headline⟩ ::
        first.lines bulletIndent (indent ++ bulletIndent)).map ("\n" ++ ·)) =
          "\n" ++ (indent ++ bulletIndent) ++ "* " ++
            first.text bulletIndent (indent ++ bulletIndent) := by
      simp [text, Bullet.line, String.append_assoc]
    rw [List.flatMap_cons, List.map_append, String.join_append, head, ih, List.map_cons,
      List.map_cons, String.join_cons]

/-- The headline and the texts of the bullets are each on one line, and the bullets stand below the
level of the headline. -/
structure WellFormed (outline : Outline) : Prop where
  headline : OneLine outline.headline
  bullets : ∀ bullet ∈ outline.bullets, 0 < bullet.depth ∧ OneLine bullet.text

namespace WellFormed

variable {outline : Outline}

/-- A headline on one line is well formed without bullets. -/
theorem plain {headline : String} (line : OneLine headline) : (plain headline).WellFormed where
  -- There are no bullets that would have to stand below it.
  headline := line
  bullets := by simp [Outline.plain]

/-- Words on one line keep the headline on one line. -/
theorem after {words : String} (line : OneLine words) (formed : outline.WellFormed) :
    (outline.after words).WellFormed where
  -- The bullets are the same ones.
  headline := oneLine_append.mpr ⟨line, formed.headline⟩
  bullets := formed.bullets

/-- Bullets that are moved deeper stay below the headline. -/
theorem deeper (formed : outline.WellFormed) : outline.deeper.WellFormed where
  -- Every bullet is one level deeper, with the same text.
  headline := formed.headline
  bullets := by
    rw [Outline.deeper, List.forall_mem_map]
    exact fun bullet member => ⟨Nat.succ_pos _, (formed.bullets bullet member).2⟩

/-- Well-formed outlines are well formed together below a headline on one line. -/
theorem under {headline : String} (line : OneLine headline) {outlines : List Outline}
    (each : ∀ outline ∈ outlines, outline.WellFormed) :
    (under headline outlines).WellFormed where
  headline := line
  bullets := by
    intro bullet member
    obtain ⟨outline, listed, member⟩ := List.mem_flatMap.mp member
    -- The bullet has the headline of an outline, or it is one of those below.
    rcases List.mem_cons.mp member with rfl | member
    · exact ⟨Nat.one_pos, (each outline listed).headline⟩
    · exact (each outline listed).deeper.bullets bullet member

/-- The lines below the headline are on one line each, behind an indent that is. -/
theorem oneLine_of_mem_lines (formed : outline.WellFormed) {bulletIndent indent : String}
    (bulletSpace : OneLine bulletIndent) (space : OneLine indent) :
    ∀ line ∈ outline.lines bulletIndent indent, OneLine line := by
  -- A line is the indent, some bullet indents, an asterisk and a text, none with a line break.
  rw [lines, List.forall_mem_map]
  intro bullet member
  have text := (formed.bullets bullet member).2
  have spaces : ∀ piece ∈ List.replicate bullet.depth bulletIndent, OneLine piece := by
    intro piece repeated
    rwa [List.eq_of_mem_replicate repeated]
  simp only [Bullet.line, oneLine_append, oneLine_join]
  exact ⟨⟨⟨space, spaces⟩, by decide⟩, text⟩

/-- An outline is moved to an indent by putting that indent in after every line break. -/
theorem text_eq_indentLines (formed : outline.WellFormed) {bulletIndent : String}
    (bulletSpace : OneLine bulletIndent) (indent : String) :
    outline.text bulletIndent indent = indentLines indent (outline.text bulletIndent "") := by
  -- The only line breaks are those before the bulleted lines.
  have moved : ((outline.lines bulletIndent "").map ("\n" ++ ·)).map (indentLines indent) =
      (outline.lines bulletIndent indent).map ("\n" ++ ·) := by
    simp only [lines, List.map_map]
    apply List.map_congr_left
    intro bullet member
    -- Inside a line there is nothing to put the indent behind.
    have line : OneLine (bullet.line bulletIndent "") :=
      formed.oneLine_of_mem_lines bulletSpace (by decide) _ (List.mem_map_of_mem member)
    simp only [Function.comp_apply, indentLines_append, indentLines_lineBreak, line.indentLines]
    simp [Bullet.line, String.append_assoc]
  rw [text, text, indentLines_append, formed.headline.indentLines, indentLines_join, moved]

/-- The lines of an outline below its headline are bulleted. -/
theorem bulletedBelow_text (formed : outline.WellFormed) {bulletIndent indent : String}
    (bulletSpace : OneLine bulletIndent) (space : OneLine indent) :
    BulletedBelow bulletIndent indent (outline.text bulletIndent indent) := by
  intro before after split
  obtain ⟨line, member, rest, rfl⟩ := afterLineBreaks_of_lines formed.headline
    (formed.oneLine_of_mem_lines bulletSpace space) before after split
  -- The line that follows is that of a bullet, which stands at some depth.
  obtain ⟨bullet, listed, rfl⟩ := List.mem_map.mp member
  refine ⟨bullet.depth, bullet.text ++ rest, (formed.bullets bullet listed).1, ?_⟩
  simp [Bullet.line, String.append_assoc]

end WellFormed

end Outline

/-- To be none of some things is told on one line if the things are. -/
theorem oneLine_noneOf {α : Type} {write : α → String} {items : List α}
    (each : ∀ item ∈ items, OneLine (write item)) :
    OneLine ("not " ++ disjunction (items.map write)) := by
  -- Only words and commas stand between them.
  have things : OneLine (disjunction (items.map write)) := by
    apply OneLine.disjunction
    rwa [List.forall_mem_map]
  exact oneLine_append.mpr ⟨by decide, things⟩

/-- What a value was asked to be is told on one line. -/
theorem Expectation.oneLine_text {classes : Hierarchy} (classNames : classes.NamedOnOneLine)
    (style : Style) (expected : Expectation) : OneLine (expected.text classes style) := by
  -- An expectation shows classes or values, one by one, or numbers and fixed words.
  cases expected with
  | instanceOf refs => exact oneLine_noneOf fun ref _ => classNames.nameOf ref
  | oneOf values => exact oneLine_noneOf fun value _ => Value.oneLine_brief classNames _ value
  | subclassOf ref => exact oneLine_append.mpr ⟨by decide, classNames.nameOf ref⟩
  | length actual expected =>
    unfold text
    simp +decide [oneLine_ofNat]
  | classObject => exact show OneLine "not class" by decide
  | emptyTuple => exact show OneLine "not empty tuple" by decide

/-- The way to a part is told on one line. -/
theorem Step.oneLine_text {classes : Hierarchy} (classNames : classes.NamedOnOneLine)
    (style : Style) (step : Step) : OneLine (step.text classes style) := by
  -- A step shows a number, a key, or fixed words.
  cases step with
  | index position => simp +decide [text, oneLine_ofNat]
  | valueAt stored =>
    have brief := Value.oneLine_brief classNames style.excerptLimit stored
    simp +decide [text, brief]
  | _ => simp +decide [text]

namespace Cause

mutual

/-- The outline of a cause. -/
def outline (classes : Hierarchy) (style : Style) : Cause → Outline
  | .mismatch value expected =>
    .plain (value.describe classes style.excerptLimit ++ " " ++ expected.text classes style)
  | .within value step inner =>
    (outline classes style inner).after
      (value.describe classes style.excerptLimit ++ " " ++ step.text classes style ++ " ")
  | .alternatives value members causes =>
    match outlines classes style causes with
    | [] =>
      .plain (value.describe classes style.excerptLimit ++ " not any member of empty union")
    -- An outline that stands alone has no bullet, and its own bullets are deeper all the same.
    | [only] => only.deeper
    | several =>
      Outline.under
        (value.describe classes style.excerptLimit ++ " not any member of " ++
          (Hint.union members).text classes ++ ":") several

/-- The outlines of the given causes. -/
def outlines (classes : Hierarchy) (style : Style) : List Cause → List Outline
  | [] => []
  | cause :: rest => outline classes style cause :: outlines classes style rest

end

mutual

/-- A cause is worded as its outline is written. -/
theorem text_eq_outline (classes : Hierarchy) (style : Style) (indent : String) (cause : Cause) :
    cause.text classes style indent =
      (cause.outline classes style).text style.bulletIndent indent := by
  -- By induction on the cause: both are put together in the same way from what is inside.
  cases cause with
  | mismatch value expected => exact (Outline.text_plain _ _ _).symm
  | within value step inner =>
    rw [text, outline, Outline.text_after, text_eq_outline]
  | alternatives value members causes =>
    -- The alternatives are worded with the bullet indent put into the indent.
    rw [text, outline]
    simp only [texts_eq_outlines classes style _ causes]
    cases outlines classes style causes with
    | nil => exact (Outline.text_plain _ _ _).symm
    | cons first rest =>
      cases rest with
      | nil => exact (Outline.text_deeper _ _ _).symm
      | cons second rest => exact (Outline.text_under _ _ _ (first :: second :: rest)).symm

/-- Several causes are worded as their outlines are written. -/
theorem texts_eq_outlines (classes : Hierarchy) (style : Style) (indent : String)
    (causes : List Cause) :
    texts classes style indent causes =
      (outlines classes style causes).map (Outline.text style.bulletIndent indent) := by
  -- By induction on the causes, each of which is worded as its outline is written.
  cases causes with
  | nil => rfl
  | cons cause rest =>
    rw [texts, outlines, List.map_cons, text_eq_outline, texts_eq_outlines]

end

/-- The outlines of several causes are those of each of them. -/
theorem outlines_eq_map (classes : Hierarchy) (style : Style) (causes : List Cause) :
    outlines classes style causes = causes.map (outline classes style) := by
  -- Cause by cause, the one list grows with the other.
  induction causes with
  | nil => rfl
  | cons cause rest ih => rw [outlines, List.map_cons, ih]

variable {classes : Hierarchy} {style : Style}

/-- A mismatch is told on one line. -/
theorem wellFormed_mismatch (classNames : classes.NamedOnOneLine) (value : Value)
    (expected : Expectation) : ((mismatch value expected).outline classes style).WellFormed := by
  -- It has a headline only, which shows the value and what it was asked to be.
  have value := Value.oneLine_describe classNames style.excerptLimit value
  have expected := expected.oneLine_text classNames style
  rw [outline]
  exact .plain (by simp +decide [value, expected])

/-- What is told of a value around a part goes before the headline for that part. -/
theorem wellFormed_within (classNames : classes.NamedOnOneLine) (value : Value) (step : Step)
    {inner : Cause} (formed : (inner.outline classes style).WellFormed) :
    ((within value step inner).outline classes style).WellFormed := by
  -- The value and the step are shown on one line, and the rest is that of the part.
  have value := Value.oneLine_describe classNames style.excerptLimit value
  have step := step.oneLine_text classNames style
  rw [outline]
  exact formed.after (by simp +decide [value, step])

/-- Alternatives are well formed together, however many there are. -/
theorem wellFormed_alternatives (classNames : classes.NamedOnOneLine) (value : Value)
    {members : List Hint} (named : (Hint.union members).NamedOnOneLine) {causes : List Cause}
    (each : ∀ cause ∈ causes, (cause.outline classes style).WellFormed) :
    ((alternatives value members causes).outline classes style).WellFormed := by
  -- The value and the union are shown on one line, and the outlines inside are well formed.
  have value := Value.oneLine_describe classNames style.excerptLimit value
  have union := Hint.oneLine_text classNames named
  have formed : ∀ outline ∈ outlines classes style causes, outline.WellFormed := by
    rw [outlines_eq_map, List.forall_mem_map]
    exact each
  -- There are no alternatives, a lone one that takes the place of all, or several.
  rw [outline]
  split
  · exact .plain (by simp +decide [value])
  · next only lone => exact (formed only (by simp [lone])).deeper
  · exact .under (by simp +decide [value, union]) formed

end Cause

end Misfit
