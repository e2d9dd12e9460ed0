import Misfit.Proofs.Cause.Scope
import Misfit.Proofs.Hierarchy.Latest
import Misfit.Proofs.Value.Settled

/-! Hints all of whose classes are defined: after further definitions they read alike, and a check
under them finds the same. -/

namespace Misfit

namespace Hint

/-- Whether the classes are defined that a hint itself names, be it in the values of a literal. -/
def NamedClassesDefined (classes : Hierarchy) : Hint → Prop
  | .instanceOf ref | .generic ref _ | .subclassOf ref => classes.contains ref = true
  | .literal values => ∀ value ∈ values, value.Settled classes
  | _ => True

/-- Every class that is named in a hint, at every depth, is defined. -/
def Settled (classes : Hierarchy) (hint : Hint) : Prop :=
  Everywhere parts (NamedClassesDefined classes) hint

/-- A hint refers to a name, at some depth, that is looked up when a value is checked. -/
def RefersTo (name : String) (hint : Hint) : Prop := Somewhere parts (· = .forwardRef name) hint

variable {later classes : Hierarchy}

/-- A settled hint is written alike after further definitions. -/
theorem text_of_extends (extends_ : later.Extends classes) {hint : Hint}
    (settled : hint.Settled classes) : hint.text later = hint.text classes := by
  -- Apart from its parts, a form writes names of defined classes and text of its own.
  induction hint using parts_induction with
  | step hint ih =>
    have defined := settled.here
    have each : ∀ part ∈ hint.parts, part.text later = part.text classes :=
      fun part member => ih part member (settled.part member)
    -- Lists of parts are written as lists of their texts.
    have listed : ∀ hints : List Hint, (∀ part ∈ hints, part ∈ hint.parts) →
        texts later hints = texts classes hints := by
      intro hints within
      rw [texts_eq_map, texts_eq_map]
      exact List.map_congr_left fun part member => each part (within part member)
    cases hint with
    | instanceOf ref | generic origin bases => exact extends_.nameOf defined
    | subclassOf ref => rw [text, text, extends_.nameOf defined]
    | union members => rw [text, text, listed members fun _ member => member]
    | tuple items => rw [text, text, listed items fun _ member => member]
    | collection form item | tupleOf item => rw [text, text, each item (by simp [parts])]
    | mapping form key value =>
      rw [text, text, each key (by simp [parts]), each value (by simp [parts])]
    | literal values =>
      have valueTexts : values.map (Value.text later) = values.map (Value.text classes) :=
        List.map_congr_left fun value member =>
          Value.text_of_extends extends_ (defined value member)
      rw [text, text, valueTexts]
    | callable parameters result =>
      rw [text, text, listed parameters fun _ member => List.mem_append_left _ member,
        each result (by simp [parts])]
    | any | forwardRef name | typeVar name | foreign given => rfl

/-- Values and hints all of whose classes are defined, where each name that is looked up stands for
the same class in two hierarchies. -/
def settledScope (later classes : Hierarchy) : Scope where
  values := Value.Settled classes
  hints := fun hint => hint.Settled classes ∧
    ∀ name, hint.RefersTo name → later.latest? name = classes.latest? name

section Check

variable {hint : Hint} {value : Value}

/-- A plain class that is defined is in this scope. -/
theorem settledScope_instanceOf {ref : ClassRef} (defined : classes.contains ref = true) :
    (settledScope later classes).hints (.instanceOf ref) := by
  refine ⟨.leaf defined rfl, ?_⟩
  -- Neither is a class a reference by name nor does it have parts.
  intro name refers
  cases refers with
  | here same => cases same
  | inside member _ => cases member

/-- What a check of something in this scope looks at stays in scope. -/
theorem closed_settledScope (built : classes.WellBuilt) :
    (settledScope later classes).Closed classes where
  -- Whatever a settled value or hint leads to is settled with it.
  item shown _ member := shown.item member
  entry shown _ member := shown.entry member
  part asked part member :=
    ⟨asked.1.part member, fun name refers => asked.2 name (.inside member refers)⟩
  origin {hint ref} asked found := by
    -- Only a plain class and a generic hint ask for a class of their own choice.
    have defined := asked.1.here
    apply settledScope_instanceOf
    cases hint with
    | instanceOf | generic =>
      cases found
      exact defined
    | collection form | mapping form =>
      cases found
      apply built.contains_predefined
      cases form <;> rfl
    | tuple | tupleOf =>
      cases found
      exact built.contains_predefined rfl
    | _ => cases found
  subclass asked := settledScope_instanceOf asked.1.here
  latest _ found := by
    -- The latest class of a name has a record, so it is defined.
    obtain ⟨⟨record, recorded, _⟩, _⟩ := Hierarchy.latest?_eq_some_iff.mp found
    apply settledScope_instanceOf
    rw [Hierarchy.contains_iff_isSome, recorded]
    rfl
  literal asked := asked.1.here

/-- Further definitions do not change what a check of settled things asks of the value itself. -/
theorem checkItself_of_extends (extends_ : later.Extends classes) (built : classes.WellBuilt)
    (asked : (settledScope later classes).hints hint) (shown : value.Settled classes) :
    hint.checkItself later value = hint.checkItself classes value := by
  -- Descent is asked about of a defined class: that of the value, or the one it stands for.
  have class_ := shown.known.contains_classRef built
  have instance_ : ∀ ref, later.checkInstance ref value = classes.checkInstance ref value := by
    intro ref
    rw [Hierarchy.checkInstance, Hierarchy.checkInstance, extends_.derives_eq built class_]
  cases hint with
  | instanceOf | collection | tupleOf | mapping | generic => exact instance_ _
  | tuple hints => rw [checkItself, checkItself, instance_]
  | subclassOf ref =>
    -- A class object is asked about as the class that it stands for.
    cases value with
    | classObject child =>
      have defined : classes.contains child = true := shown.here
      rw [checkItself, checkItself, Hierarchy.checkSubclass, Hierarchy.checkSubclass,
        extends_.derives_eq built defined]
    | _ => rfl
  | forwardRef name => rw [checkItself, checkItself, asked.2 name (.here rfl)]
  | any | union | literal | callable | typeVar | foreign => rfl

/-- Further definitions do not change which pairs a check visits, if names stand for the same
classes. -/
theorem visits_of_extends (asked : (settledScope later classes).hints hint) (value : Value) :
    hint.visits later value = hint.visits classes value := by
  -- Of all forms only a name looks at the hierarchy to find what to visit.
  cases hint with
  | forwardRef name => rw [visits, visits, asked.2 name (.here rfl)]
  | _ => rfl

/-- Further definitions do not change what a check of settled things finds, if names stand for the
same classes. -/
theorem check_of_extends (extends_ : later.Extends classes) (built : classes.WellBuilt)
    (asked : (settledScope later classes).hints hint) (shown : value.Settled classes) :
    hint.check later value = hint.check classes value := by
  have closed : (settledScope later classes).Closed classes := closed_settledScope built
  -- Members and visits are in scope with the whole, and both checks work through the same ones.
  induction hint, value using visits_induction classes with
  | step hint value visited members =>
    rcases hint.union_or_not with ⟨alternatives, rfl⟩ | notUnion
    · -- Every member of the union finds the same, or is left out under both.
      have each : alternatives.map (fun member =>
            Finding.unlessVacuous member fun _ => member.check later value) =
          alternatives.map fun member =>
            Finding.unlessVacuous member fun _ => member.check classes value := by
        apply List.map_congr_left
        intro member listed
        rw [members alternatives rfl member listed (closed.part asked member listed) shown]
      rw [check, check, checkMembers_eq_anyOf, checkMembers_eq_anyOf, each]
    · -- Both look at the value itself, and then at the same visits in the same order.
      rw [check_eq_visits notUnion, check_eq_visits notUnion,
        checkItself_of_extends extends_ built asked shown, visits_of_extends asked]
      apply congrArg fun found => (hint.checkItself classes value).andThen fun _ => found
      apply Finding.firstOf_congr
      intro visit member
      obtain ⟨asked', shown', _⟩ := closed.visit asked shown member
      rw [Visit.check, Visit.check, visited visit member asked' shown']

/-- Settled things are worded alike after further definitions, if names stand for the same
classes. -/
theorem wordedAlike_settledScope (extends_ : later.Extends classes) (built : classes.WellBuilt)
    (style : Style) : (settledScope later classes).WordedAlike later classes style style where
  -- Words show names of classes, values and hints, all of which are defined before.
  className shown := extends_.nameOf (shown.known.contains_classRef built)
  brief shown := Value.brief_of_extends extends_ shown _
  hint asked := text_of_extends extends_ asked.1
  bulletIndent := rfl

end Check

end Hint

end Misfit
