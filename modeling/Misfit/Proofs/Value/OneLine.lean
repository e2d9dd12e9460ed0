import Misfit.Proofs.Text.OneLine
import Misfit.Proofs.Value.Excerpt

/-! The texts of values are on one line, whatever line breaks the values hold. -/

namespace Misfit

/-- No class has a line break in its name. -/
def Hierarchy.NamedOnOneLine (classes : Hierarchy) : Prop :=
  ∀ record ∈ classes.records, OneLine record.name

/-- The name of every class is on one line, as is the placeholder for one that is not defined. -/
theorem Hierarchy.NamedOnOneLine.nameOf {classes : Hierarchy} (named : classes.NamedOnOneLine)
    (ref : ClassRef) : OneLine (classes.nameOf ref) := by
  -- A class that is not defined is called by fixed words.
  unfold Hierarchy.nameOf get?
  split
  · next record found => exact named record (Array.mem_of_getElem? found)
  · decide

/-- Pieces on one line stay on one line when they are appended within a budget. -/
theorem OneLine.appendWithin {α : Type} {budget : Nat} {piece : α → String} {items : List α}
    (each : ∀ item ∈ items, OneLine (piece item)) {out : String} (start : OneLine out) :
    OneLine (appendWithin budget piece items out) := by
  -- Pieces are appended one after the other until the budget is used up.
  induction items generalizing out with
  | nil => exact start
  | cons item rest ih =>
    rw [Misfit.appendWithin]
    split
    · exact start
    · have head := each item (by simp)
      have tail : ∀ later ∈ rest, OneLine (piece later) :=
        fun later member => each later (by simp [member])
      exact ih tail (oneLine_append.mpr ⟨start, head⟩)

/-- What stands around the items of a container is on one line. -/
theorem ContainerKind.oneLine_brackets (kind : ContainerKind) (count : Nat) :
    OneLine (kind.opening count) ∧ OneLine (kind.closing count) := by
  -- There are a few brackets for each kind, and none has a line break.
  constructor
  · unfold opening
    split <;> decide
  · unfold closing
    split <;> decide

namespace Value

variable {classes : Hierarchy} {budget : Nat}

mutual

/-- A value is appended on the line on which the text before it ends. -/
theorem oneLine_appendText (named : classes.NamedOnOneLine) (value : Value) {out : String}
    (start : OneLine out) : OneLine (appendText classes budget value out) := by
  -- Nothing is written once the budget is used up.
  unfold appendText
  split
  · exact start
  · -- Characters and bytes are escaped, and all else is written without line breaks.
    have quote : OneLine "'" := by decide
    cases value with
    | none => exact oneLine_append.mpr ⟨start, by decide⟩
    | bool truth => exact oneLine_append.mpr ⟨start, by cases truth <;> decide⟩
    | int number => exact oneLine_append.mpr ⟨start, oneLine_ofInt number⟩
    | float number => exact oneLine_append.mpr ⟨start, oneLine_float number⟩
    | str content =>
      have opened := oneLine_append.mpr ⟨start, quote⟩
      exact oneLine_append.mpr
        ⟨OneLine.appendWithin (fun c _ => oneLine_escapeChar c) opened, quote⟩
    | bytes content =>
      have opened := oneLine_append.mpr ⟨start, show OneLine "b'" by decide⟩
      exact oneLine_append.mpr
        ⟨OneLine.appendWithin (fun byte _ => oneLine_escapeByte byte) opened, quote⟩
    | container kind items =>
      obtain ⟨opening, closing⟩ := kind.oneLine_brackets items.length
      have inside := oneLine_appendItems named "" (by decide) items
        (oneLine_append.mpr ⟨start, opening⟩)
      exact oneLine_append.mpr ⟨inside, closing⟩
    | dict entries =>
      -- Keys and stored values are appended in turn, behind the opening brace.
      exact oneLine_appendEntries named "" (by decide) entries
        (oneLine_append.mpr ⟨start, by decide⟩)
    | classObject ref | object ref =>
      simp only [oneLine_append]
      exact ⟨⟨⟨start, by decide⟩, named.nameOf ref⟩, by decide⟩
    | itemsObject ref items =>
      -- An object is written as its class, and then like what it holds.
      have opened : OneLine (out ++ classes.nameOf ref ++ "([") := by
        simp only [oneLine_append]
        exact ⟨⟨start, named.nameOf ref⟩, by decide⟩
      exact oneLine_append.mpr ⟨oneLine_appendItems named "" (by decide) items opened, by decide⟩
    | entriesObject ref entries =>
      have opened : OneLine (out ++ classes.nameOf ref ++ "(\x7b") := by
        simp only [oneLine_append]
        exact ⟨⟨start, named.nameOf ref⟩, by decide⟩
      exact oneLine_append.mpr
        ⟨oneLine_appendEntries named "" (by decide) entries opened, by decide⟩

/-- Items are appended on the line on which the text before them ends. -/
theorem oneLine_appendItems (named : classes.NamedOnOneLine) (separator : String)
    (between : OneLine separator) (items : List Value) {out : String} (start : OneLine out) :
    OneLine (appendItems classes budget separator items out) := by
  cases items with
  | nil => exact start
  | cons item rest =>
    -- When the budget is used up the rest is passed over.
    rw [appendItems]
    split
    · exact start
    · apply oneLine_appendItems named ", " (by decide) rest
      exact oneLine_appendText named item (oneLine_append.mpr ⟨start, between⟩)

/-- Entries are appended on the line on which the text before them ends. -/
theorem oneLine_appendEntries (named : classes.NamedOnOneLine) (separator : String)
    (between : OneLine separator) (entries : List (Value × Value)) {out : String}
    (start : OneLine out) : OneLine (appendEntries classes budget separator entries out) := by
  -- The entries are appended in turn, until the budget is used up.
  cases entries with
  | nil => exact oneLine_append.mpr ⟨start, by decide⟩
  | cons entry rest =>
    -- The key is followed by its colon whether or not the budget lasts for the value.
    obtain ⟨key, stored⟩ := entry
    rw [appendEntries]
    split
    · exact start
    · have keyed := oneLine_appendText named key (oneLine_append.mpr ⟨start, between⟩)
      apply oneLine_appendEntries named ", " (by decide) rest
      exact oneLine_appendText named stored (oneLine_append.mpr ⟨keyed, by decide⟩)

end

/-- The full text of a value is on one line. -/
theorem oneLine_text (named : classes.NamedOnOneLine) (value : Value) :
    OneLine (value.text classes) := by
  -- The full text is what a budget of its own size appends to nothing.
  rw [← appendText_eq_text classes (Nat.le_refl _)]
  exact oneLine_appendText named value (by decide)

/-- What causes show of a value is on one line. -/
theorem oneLine_brief (named : classes.NamedOnOneLine) (limit : Nat) (value : Value) :
    OneLine (value.brief classes limit) :=
  -- The excerpt is on one line from its start, and stays so when it is cut.
  (oneLine_appendText named value (by decide)).cut limit

/-- A value is introduced on one line. -/
theorem oneLine_describe (named : classes.NamedOnOneLine) (limit : Nat) (value : Value) :
    OneLine (value.describe classes limit) := by
  -- Every value but one is introduced by the name of its class.
  have brief := oneLine_brief named limit value
  have name := named.nameOf value.classRef
  cases value with
  | none => exact brief
  | _ =>
    unfold describe
    simp only [oneLine_append]
    exact ⟨⟨name, by decide⟩, brief⟩

end Value

end Misfit
