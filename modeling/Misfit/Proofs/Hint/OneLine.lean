import Misfit.Proofs.Everywhere
import Misfit.Proofs.Hint.Parts
import Misfit.Proofs.Value.OneLine

/-! The text of a hint is on one line if the names and texts are that were given to it. -/

namespace Misfit

namespace Hint

/-- The name or text that was given to a hint, if it was given one, is on one line. -/
def GivenOnOneLine : Hint → Prop
  | .forwardRef given | .typeVar given | .foreign given => OneLine given
  | _ => True

/-- All names and texts that were given to a hint or to hints inside it are on one line. -/
def NamedOnOneLine (hint : Hint) : Prop := Everywhere parts GivenOnOneLine hint

/-- A union is written on one line if its members are, be they a pair with `None` or not. -/
theorem oneLine_unionText {members : List Hint} {texts : List String}
    (each : ∀ text ∈ texts, OneLine text) : OneLine (unionText members texts) := by
  -- A pair is written in one of three ways, and every other list in a fourth.
  unfold unionText
  split
  · next first second firstText secondText =>
    -- A pair with `None` shows the other member alone.
    have firstLine := each firstText (by simp)
    have secondLine := each secondText (by simp)
    split
    · simp +decide [firstLine]
    · split
      · simp +decide [secondLine]
      · simp +decide [firstLine, secondLine]
  · have listed := OneLine.intercalate (show OneLine ", " by decide) each
    simp +decide [listed]

section Forms

variable {classes : Hierarchy}

/-- Hints listed with commas between them are on one line if each is. -/
theorem oneLine_listed {hints : List Hint}
    (each : ∀ hint ∈ hints, OneLine (hint.text classes)) :
    OneLine (", ".intercalate (texts classes hints)) := by
  -- Commas are on one line too.
  apply OneLine.intercalate (by decide)
  rwa [texts_eq_map, List.forall_mem_map]

/-- A union is written on one line if its members are. -/
theorem oneLine_union {members : List Hint}
    (each : ∀ hint ∈ members, OneLine (hint.text classes)) :
    OneLine ((union members).text classes) := by
  -- The text is put together from those of the members alone.
  apply oneLine_unionText
  rwa [texts_eq_map, List.forall_mem_map]

/-- A collection is written on one line if its items are. -/
theorem oneLine_collection (form : CollectionForm) {item : Hint}
    (itemLine : OneLine (item.text classes)) :
    OneLine ((collection form item).text classes) := by
  -- The names of the forms are fixed, and none of them has a line break.
  have name : OneLine form.name := by cases form <;> decide
  simp +decide [text, name, itemLine]

/-- A tuple is written on one line if its items are. -/
theorem oneLine_tuple {items : List Hint}
    (each : ∀ hint ∈ items, OneLine (hint.text classes)) :
    OneLine ((tuple items).text classes) := by
  have itemsLine := oneLine_listed each
  rw [text]
  -- The tuple without items has a text of its own.
  split
  · simp +decide
  · simp +decide [itemsLine]

/-- A mapping is written on one line if its keys and values are. -/
theorem oneLine_mapping (form : MappingForm) {key value : Hint}
    (keyLine : OneLine (key.text classes)) (valueLine : OneLine (value.text classes)) :
    OneLine ((mapping form key value).text classes) := by
  -- As with collections, the names of the forms are fixed.
  have name : OneLine form.name := by cases form <;> decide
  simp +decide [text, name, keyLine, valueLine]

/-- A literal is written on one line, whatever values it names. -/
theorem oneLine_literal (classNames : classes.NamedOnOneLine) (values : List Value) :
    OneLine ((literal values).text classes) := by
  -- Line breaks inside the values are escaped.
  have valuesLine : OneLine (", ".intercalate (values.map (Value.text classes))) := by
    apply OneLine.intercalate (by decide)
    rw [List.forall_mem_map]
    exact fun value _ => Value.oneLine_text classNames value
  simp +decide [text, valuesLine]

/-- A callable is written on one line if its parameters and its result are. -/
theorem oneLine_callable {parameters : List Hint} {result : Hint}
    (each : ∀ hint ∈ parameters, OneLine (hint.text classes))
    (resultLine : OneLine (result.text classes)) :
    OneLine ((callable parameters result).text classes) := by
  -- The parameters are listed, and the result stands behind them.
  have parametersLine := oneLine_listed each
  simp +decide [text, parametersLine, resultLine]

end Forms

/-- A hint whose names are on one line is written on one line. -/
theorem oneLine_text {classes : Hierarchy} (classNames : classes.NamedOnOneLine) {hint : Hint}
    (named : hint.NamedOnOneLine) : OneLine (hint.text classes) := by
  -- Apart from its parts, a form writes names that are on one line and text of its own.
  induction hint using parts_induction with
  | step hint ih =>
    have given := named.here
    -- What stands for the parts is on one line by induction.
    have each : ∀ part ∈ hint.parts, OneLine (part.text classes) :=
      fun part member => ih part member (named.part member)
    cases hint with
    | any =>
      rw [text]
      decide
    | instanceOf ref => exact classNames.nameOf ref
    | union members => exact oneLine_union each
    | collection form item => exact oneLine_collection form (each item (by simp [parts]))
    | tuple items => exact oneLine_tuple each
    | tupleOf item =>
      have itemLine := each item (by simp [parts])
      simp +decide [text, itemLine]
    | mapping form key value =>
      exact oneLine_mapping form (each key (by simp [parts])) (each value (by simp [parts]))
    | generic origin bases => exact classNames.nameOf origin
    | subclassOf ref =>
      have name := classNames.nameOf ref
      simp +decide [text, name]
    | literal values => exact oneLine_literal classNames values
    | forwardRef name | typeVar name =>
      -- A name stands behind a mark, or between two.
      have nameLine : OneLine name := given
      simp +decide [text, nameLine]
    | callable parameters result =>
      -- The parameters are parts, and the result is the last of them.
      have parametersLine : ∀ hint ∈ parameters, OneLine (hint.text classes) :=
        fun hint member => each hint (List.mem_append_left _ member)
      exact oneLine_callable parametersLine (each result (by simp [parts]))
    | foreign text => exact given

end Hint

end Misfit
