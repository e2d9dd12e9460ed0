import Misfit.Proofs.Everywhere
import Misfit.Proofs.Hierarchy.WellBuilt
import Misfit.Value.Text

/-! The parts of a value and their texts, and properties that hold of a value at every depth, such
as that all its classes are defined. -/

namespace Misfit

namespace Value

/-- The values that a value is directly built from: items, or each key and the value under it. -/
def parts : Value → List Value
  | .container _ items => items
  | .dict entries => entries.flatMap fun (key, stored) => [key, stored]
  | .itemsObject _ items => items
  | .entriesObject _ entries => entries.flatMap fun (key, stored) => [key, stored]
  | _ => []

/-- The texts of several values are those of each of them. -/
theorem itemTexts_eq_map (classes : Hierarchy) (items : List Value) :
    itemTexts classes items = items.map (text classes) := by
  -- Item by item, the one list grows with the other.
  induction items with
  | nil => rfl
  | cons item rest ih => rw [itemTexts, ih, List.map_cons]

/-- The texts of several entries are those of each of them. -/
theorem entryTexts_eq_map (classes : Hierarchy) (entries : List (Value × Value)) :
    entryTexts classes entries =
      entries.map fun entry => entry.1.text classes ++ ": " ++ entry.2.text classes := by
  -- Entry by entry, the one list grows with the other.
  induction entries with
  | nil => rfl
  | cons entry rest ih => rw [entryTexts, ih, List.map_cons]

/-- Whether a class of a value's own is defined; all other values have predefined classes. -/
def ClassDefined (classes : Hierarchy) : Value → Prop
  | .object ref | .itemsObject ref _ | .entriesObject ref _ => classes.contains ref = true
  | _ => True

/-- The class of every object in a value, at every depth, is defined. -/
def Known (classes : Hierarchy) (value : Value) : Prop :=
  Everywhere parts (ClassDefined classes) value

/-- The class of a known value is defined. -/
theorem Known.contains_classRef {classes : Hierarchy} (built : classes.WellBuilt) {value : Value}
    (known : value.Known classes) : classes.contains value.classRef = true := by
  -- Objects have classes of their own, and all other values have predefined ones.
  have defined := known.here
  cases value with
  | object ref | itemsObject ref items | entriesObject ref entries => exact defined
  | container kind items =>
    apply built.contains_predefined
    cases kind <;> rfl
  | _ => exact built.contains_predefined rfl

/-- A text has a predefined class and no parts. -/
theorem known_str (classes : Hierarchy) (content : String) : (str content).Known classes :=
  -- There is no class to be looked up.
  .leaf trivial rfl

/-- A number has a predefined class and no parts. -/
theorem known_int (classes : Hierarchy) (number : Int) : (int number).Known classes :=
  -- There is no class to be looked up.
  .leaf trivial rfl

/-- What holds everywhere in a value, and of every text and number, holds everywhere in its visible
items. -/
theorem everywhere_item {property : Value → Prop} (texts : ∀ content, property (.str content))
    (numbers : ∀ number, property (.int number)) {value : Value}
    (everywhere : Everywhere parts property value) {part : Value}
    (member : part ∈ value.items?.getD []) : Everywhere parts property part := by
  -- Characters and bytes are no parts of the value, but they are texts and numbers.
  cases value with
  | str content =>
    obtain ⟨c, _, rfl⟩ := List.mem_map.mp member
    exact .leaf (texts _) rfl
  | bytes content =>
    obtain ⟨byte, _, rfl⟩ := List.mem_map.mp member
    exact .leaf (numbers _) rfl
  | container kind items | itemsObject ref items => exact everywhere.part member
  | _ => simp [items?] at member

/-- What holds everywhere in a value holds everywhere in its visible keys and stored values. -/
theorem everywhere_entry {property : Value → Prop} {value : Value}
    (everywhere : Everywhere parts property value) {entry : Value × Value}
    (member : entry ∈ value.pairs?.getD []) :
    Everywhere parts property entry.1 ∧ Everywhere parts property entry.2 := by
  -- The parts of a value with entries are the keys and the stored values, in one list.
  cases value with
  | dict entries | entriesObject ref entries =>
    constructor
    · exact everywhere.part (List.mem_flatMap.mpr ⟨entry, member, by simp⟩)
    · exact everywhere.part (List.mem_flatMap.mpr ⟨entry, member, by simp⟩)
  | _ => simp [pairs?] at member

/-- The visible items of a known value are known. -/
theorem Known.item {classes : Hierarchy} {value : Value} (known : value.Known classes)
    {part : Value} (member : part ∈ value.items?.getD []) : part.Known classes :=
  -- Texts and numbers have predefined classes.
  everywhere_item (fun _ => trivial) (fun _ => trivial) known member

/-- The visible keys and stored values of a known value are known. -/
theorem Known.entry {classes : Hierarchy} {value : Value} (known : value.Known classes)
    {entry : Value × Value} (member : entry ∈ value.pairs?.getD []) :
    entry.1.Known classes ∧ entry.2.Known classes :=
  -- What can be seen of a value is among its parts.
  everywhere_entry known member

end Value

end Misfit
