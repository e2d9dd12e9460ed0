import Misfit.Proofs.Hierarchy.Extends
import Misfit.Proofs.Value.Excerpt
import Misfit.Proofs.Value.Parts

/-! Values all of whose classes are defined read alike after further definitions. -/

namespace Misfit

namespace Value

/-- Whether the class that a value names is defined: the one an object is of, or the one that a
class object stands for. -/
def NamedClassDefined (classes : Hierarchy) : Value → Prop
  | .classObject ref | .object ref | .itemsObject ref _ | .entriesObject ref _ =>
    classes.contains ref = true
  | _ => True

/-- Every class that is named in a value, at every depth, is defined. -/
def Settled (classes : Hierarchy) (value : Value) : Prop :=
  Everywhere parts (NamedClassDefined classes) value

namespace Settled

variable {classes : Hierarchy} {value : Value}

/-- The objects in a settled value are of defined classes. -/
theorem known (settled : value.Settled classes) : value.Known classes := by
  -- To be settled asks for more, namely for classes that class objects stand for.
  apply Everywhere.imp settled
  intro inner defined
  cases inner with
  | object | itemsObject | entriesObject => exact defined
  | _ => trivial

/-- The visible items of a settled value are settled. -/
theorem item (settled : value.Settled classes) {part : Value}
    (member : part ∈ value.items?.getD []) : part.Settled classes :=
  -- A piece of a text or of a byte sequence names no class.
  everywhere_item (fun _ => trivial) (fun _ => trivial) settled member

/-- The visible keys and stored values of a settled value are settled. -/
theorem entry (settled : value.Settled classes) {entry : Value × Value}
    (member : entry ∈ value.pairs?.getD []) :
    entry.1.Settled classes ∧ entry.2.Settled classes :=
  -- What can be seen of a value is among its parts.
  everywhere_entry settled member

end Settled

variable {later classes : Hierarchy} {budget : Nat}

mutual

/-- A settled value is appended alike after further definitions. -/
theorem appendText_of_extends (extends_ : later.Extends classes) (value : Value)
    (settled : value.Settled classes) (out : String) :
    appendText later budget value out = appendText classes budget value out := by
  -- Whether the budget is used up does not depend on the hierarchy.
  have defined := settled.here
  unfold appendText
  split
  · rfl
  · -- Only the names of classes depend on the hierarchy, and those that are defined are kept.
    cases value with
    | container kind items =>
      simp only [appendItems_of_extends extends_ "" items fun _ => settled.item]
    | dict entries =>
      exact appendEntries_of_extends extends_ "" entries (fun _ => settled.entry) _
    | classObject ref | object ref => simp only [extends_.nameOf defined]
    | itemsObject ref items =>
      simp only [extends_.nameOf defined,
        appendItems_of_extends extends_ "" items fun _ => settled.item]
    | entriesObject ref entries =>
      simp only [extends_.nameOf defined,
        appendEntries_of_extends extends_ "" entries fun _ => settled.entry]
    | _ => rfl

/-- Settled items are appended alike after further definitions. -/
theorem appendItems_of_extends (extends_ : later.Extends classes) (separator : String)
    (items : List Value) (settled : ∀ item ∈ items, item.Settled classes) (out : String) :
    appendItems later budget separator items out =
      appendItems classes budget separator items out := by
  -- The items are appended in turn, each behind the same text.
  cases items with
  | nil => rfl
  | cons item rest =>
    rw [appendItems, appendItems, appendText_of_extends extends_ item (settled item (by simp)),
      appendItems_of_extends extends_ ", " rest fun later member =>
        settled later (by simp [member])]

/-- Settled entries are appended alike after further definitions. -/
theorem appendEntries_of_extends (extends_ : later.Extends classes) (separator : String)
    (entries : List (Value × Value))
    (settled : ∀ entry ∈ entries, entry.1.Settled classes ∧ entry.2.Settled classes)
    (out : String) :
    appendEntries later budget separator entries out =
      appendEntries classes budget separator entries out := by
  -- The entries are appended in turn, each behind the same text.
  cases entries with
  | nil => rfl
  | cons entry rest =>
    obtain ⟨key, stored⟩ := entry
    obtain ⟨keySettled, storedSettled⟩ := settled (key, stored) (by simp)
    rw [appendEntries, appendEntries, appendText_of_extends extends_ key keySettled,
      appendText_of_extends extends_ stored storedSettled,
      appendEntries_of_extends extends_ ", " rest fun later member =>
        settled later (by simp [member])]

end

/-- The full text of a settled value is the same after further definitions. -/
theorem text_of_extends (extends_ : later.Extends classes) {value : Value}
    (settled : value.Settled classes) : value.text later = value.text classes := by
  -- Both are what is appended within a budget that is enough for either.
  have enough := Nat.le_max_left (value.text later).utf8ByteSize
    (value.text classes).utf8ByteSize
  have enough' := Nat.le_max_right (value.text later).utf8ByteSize
    (value.text classes).utf8ByteSize
  calc value.text later
    _ = appendText later _ value "" := (appendText_eq_text later enough).symm
    _ = appendText classes _ value "" := appendText_of_extends extends_ value settled ""
    _ = value.text classes := appendText_eq_text classes enough'

/-- What causes show of a settled value is the same after further definitions. -/
theorem brief_of_extends (extends_ : later.Extends classes) {value : Value}
    (settled : value.Settled classes) (limit : Nat) :
    value.brief later limit = value.brief classes limit := by
  -- It is a cut of the appended text.
  rw [brief, brief, excerpt, excerpt, appendText_of_extends extends_ value settled]

end Value

end Misfit
