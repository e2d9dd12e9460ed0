import Misfit.Proofs.Hierarchy.Descends
import Misfit.Proofs.Hierarchy.WellBuilt
import Misfit.Proofs.Hint.Visits
import Misfit.Proofs.Value.Parts

/-! What hints mean, apart from how they are checked, and that a check decides it. -/

namespace Misfit

namespace Hint

/-- A value is one that a hint accepts. Nothing is passed over, and contents that cannot be seen
count in favour of the value. -/
inductive Accepts (classes : Hierarchy) : Hint → Value → Prop where
  | any {value : Value} : Accepts classes .any value
  | instanceOf {ref : ClassRef} {value : Value} (class_ : classes.Descends value.classRef ref) :
      Accepts classes (.instanceOf ref) value
  -- No member accepts anything where there is none.
  | union {members : List Hint} {hint : Hint} {value : Value} (member : hint ∈ members)
      (accepts : Accepts classes hint value) : Accepts classes (.union members) value
  | collection {form : CollectionForm} {item : Hint} {value : Value}
      (class_ : classes.Descends value.classRef form.origin)
      (each : ∀ items, value.items? = some items → ∀ part ∈ items, Accepts classes item part) :
      Accepts classes (.collection form item) value
  | tuple {hints : List Hint} {value : Value} (class_ : classes.Descends value.classRef .tuple)
      (length : ∀ items, value.items? = some items → hints.length = items.length)
      (each : ∀ items, value.items? = some items →
        ∀ pair ∈ hints.zip items, Accepts classes pair.1 pair.2) :
      Accepts classes (.tuple hints) value
  | tupleOf {item : Hint} {value : Value} (class_ : classes.Descends value.classRef .tuple)
      (each : ∀ items, value.items? = some items → ∀ part ∈ items, Accepts classes item part) :
      Accepts classes (.tupleOf item) value
  | mapping {form : MappingForm} {keyHint valueHint : Hint} {value : Value}
      (class_ : classes.Descends value.classRef form.origin)
      (keys : ∀ entries, value.pairs? = some entries →
        ∀ entry ∈ entries, Accepts classes keyHint entry.1)
      (values : ∀ entries, value.pairs? = some entries →
        ∀ entry ∈ entries, Accepts classes valueHint entry.2) :
      Accepts classes (.mapping form keyHint valueHint) value
  | generic {origin : ClassRef} {bases : List Hint} {value : Value}
      (class_ : classes.Descends value.classRef origin)
      (each : ∀ base ∈ bases, Accepts classes base value) :
      Accepts classes (.generic origin bases) value
  | subclassOf {child ref : ClassRef} (class_ : classes.Descends child ref) :
      Accepts classes (.subclassOf ref) (.classObject child)
  -- Equal values of different classes are told apart.
  | literal {values : List Value} {named value : Value} (member : named ∈ values)
      (same : value.isLiterally named = true) : Accepts classes (.literal values) value
  | forwardRef {name : String} {ref : ClassRef} {value : Value}
      (resolved : classes.latest? name = some ref)
      (class_ : classes.Descends value.classRef ref) : Accepts classes (.forwardRef name) value

section Forms

variable {classes : Hierarchy} {value : Value}

/-- A plain class accepts the values whose class descends from it. -/
theorem accepts_instanceOf_iff {ref : ClassRef} :
    Accepts classes (.instanceOf ref) value ↔ classes.Descends value.classRef ref := by
  -- The class is all that is asked about.
  constructor
  · intro accepts
    cases accepts with
    | instanceOf class_ => exact class_
  · exact .instanceOf

/-- A union accepts what one of its members accepts. -/
theorem accepts_union_iff {members : List Hint} :
    Accepts classes (.union members) value ↔ ∃ hint ∈ members, Accepts classes hint value := by
  -- The member that accepts is the only premise there is.
  constructor
  · intro accepts
    cases accepts with
    | union member accepts => exact ⟨_, member, accepts⟩
  · rintro ⟨hint, member, accepts⟩
    exact .union member accepts

/-- A collection hint accepts the collections of its class whose visible items it accepts. -/
theorem accepts_collection_iff {form : CollectionForm} {item : Hint} :
    Accepts classes (.collection form item) value ↔
      classes.Descends value.classRef form.origin ∧
        ∀ items, value.items? = some items → ∀ part ∈ items, Accepts classes item part := by
  -- Both premises of the one way to be accepted are listed.
  constructor
  · intro accepts
    cases accepts with
    | collection class_ each => exact ⟨class_, each⟩
  · rintro ⟨class_, each⟩
    exact .collection class_ each

/-- A tuple hint accepts the tuples with one visible item for each of its parts. -/
theorem accepts_tuple_iff {hints : List Hint} :
    Accepts classes (.tuple hints) value ↔
      (classes.Descends value.classRef .tuple ∧
        ∀ items, value.items? = some items → hints.length = items.length) ∧
      ∀ items, value.items? = some items →
        ∀ pair ∈ hints.zip items, Accepts classes pair.1 pair.2 := by
  -- The class and the length are about the tuple itself, and the rest is about its items.
  constructor
  · intro accepts
    cases accepts with
    | tuple class_ length each => exact ⟨⟨class_, length⟩, each⟩
  · rintro ⟨⟨class_, length⟩, each⟩
    exact .tuple class_ length each

/-- A hint for tuples of any length accepts those whose visible items its part accepts. -/
theorem accepts_tupleOf_iff {item : Hint} :
    Accepts classes (.tupleOf item) value ↔
      classes.Descends value.classRef .tuple ∧
        ∀ items, value.items? = some items → ∀ part ∈ items, Accepts classes item part := by
  -- It is the case of collections over again, for the class of tuples.
  constructor
  · intro accepts
    cases accepts with
    | tupleOf class_ each => exact ⟨class_, each⟩
  · rintro ⟨class_, each⟩
    exact .tupleOf class_ each

/-- A mapping hint accepts the mappings of its class of which each visible entry is accepted, both
its key and its value. -/
theorem accepts_mapping_iff {form : MappingForm} {keyHint valueHint : Hint} :
    Accepts classes (.mapping form keyHint valueHint) value ↔
      classes.Descends value.classRef form.origin ∧
        ∀ entries, value.pairs? = some entries → ∀ entry ∈ entries,
          Accepts classes keyHint entry.1 ∧ Accepts classes valueHint entry.2 := by
  -- What is asked of all keys and of all values is put together entry by entry.
  constructor
  · intro accepts
    cases accepts with
    | mapping class_ keys values =>
      refine ⟨class_, fun entries visible entry member => ?_⟩
      exact ⟨keys entries visible entry member, values entries visible entry member⟩
  · rintro ⟨class_, each⟩
    -- Taken apart again, it is asked of all keys, and then of all values.
    refine .mapping class_ ?_ ?_
    · exact fun entries visible entry member => (each entries visible entry member).1
    · exact fun entries visible entry member => (each entries visible entry member).2

/-- A generic hint accepts the instances of its class that all of its bases accept. -/
theorem accepts_generic_iff {origin : ClassRef} {bases : List Hint} :
    Accepts classes (.generic origin bases) value ↔
      classes.Descends value.classRef origin ∧ ∀ base ∈ bases, Accepts classes base value := by
  -- The bases are asked about the value itself, and not about parts of it.
  constructor
  · intro accepts
    cases accepts with
    | generic class_ each => exact ⟨class_, each⟩
  · rintro ⟨class_, each⟩
    exact .generic class_ each

/-- A subclass hint accepts the classes that descend from the one asked for. -/
theorem accepts_subclassOf_iff {ref : ClassRef} :
    Accepts classes (.subclassOf ref) value ↔
      ∃ child, value = .classObject child ∧ classes.Descends child ref := by
  -- No value but a class object is accepted.
  constructor
  · intro accepts
    cases accepts with
    | subclassOf class_ => exact ⟨_, rfl, class_⟩
  · rintro ⟨child, rfl, class_⟩
    exact .subclassOf class_

/-- A literal hint accepts the values that are one of those it names. -/
theorem accepts_literal_iff {values : List Value} :
    Accepts classes (.literal values) value ↔
      ∃ named ∈ values, value.isLiterally named = true := by
  -- The named value is the only premise there is.
  constructor
  · intro accepts
    cases accepts with
    | literal member same => exact ⟨_, member, same⟩
  · rintro ⟨named, member, same⟩
    exact .literal member same

/-- A forward reference accepts what the class of its name accepts, if there is such a class. -/
theorem accepts_forwardRef_iff {name : String} :
    Accepts classes (.forwardRef name) value ↔
      ∃ ref, classes.latest? name = some ref ∧ classes.Descends value.classRef ref := by
  -- A name that no class has accepts nothing.
  constructor
  · intro accepts
    cases accepts with
    | forwardRef resolved class_ => exact ⟨_, resolved, class_⟩
  · rintro ⟨ref, resolved, class_⟩
    exact .forwardRef resolved class_

end Forms

/-- A hint of a form that values are checked against; a name has to be one that some class has. -/
def Explained (classes : Hierarchy) : Hint → Prop
  | .callable _ _ | .typeVar _ | .foreign _ => False
  | .forwardRef name => (classes.latest? name).isSome = true
  | _ => True

/-- A hint that is explained at every depth. -/
def Checkable (classes : Hierarchy) (hint : Hint) : Prop :=
  Everywhere parts (Explained classes) hint

/-- A vacuous hint accepts every value whose class is defined. -/
theorem accepts_of_isVacuous {classes : Hierarchy} (built : classes.WellBuilt) {hint : Hint}
    (vacuous : hint.isVacuous = true) {value : Value} (known : value.Known classes) :
    Accepts classes hint value := by
  -- Besides the hint for any value only the root is vacuous, and all defined classes are below it.
  cases hint with
  | any => exact .any
  | instanceOf ref =>
    have root : ref = .object := by simpa [isVacuous, isInstanceOf] using vacuous
    subst root
    exact .instanceOf (.root (known.contains_classRef built))
  | _ => simp [isVacuous, isInstanceOf] at vacuous

/-- A value qualifies as an instance exactly if its class descends from the one asked for. -/
theorem checkInstance_eq_fits {classes : Hierarchy} {ref : ClassRef} {value : Value} :
    classes.checkInstance ref value = .fits ↔ classes.Descends value.classRef ref := by
  -- The executable test on classes decides descent.
  rw [← Hierarchy.derives_iff_descends]
  simp [Hierarchy.checkInstance]

/-- A value fails as an instance exactly if its class does not descend from the one asked for. -/
theorem checkInstance_eq_misfit {classes : Hierarchy} {ref : ClassRef} {value : Value}
    {reason : Cause} :
    classes.checkInstance ref value = .misfit reason ↔
      ¬classes.Descends value.classRef ref ∧ .mismatch value (.instanceOf [ref]) = reason := by
  -- There is one reason to fail, and the executable test on classes decides when it holds.
  rw [← Hierarchy.derives_iff_descends, Hierarchy.checkInstance]
  split
  · next below => simp [below]
  · next apart => simp [apart]

/-- A value qualifies for a subclass hint if it is a class that descends from the one asked for. -/
theorem checkSubclass_eq_fits {classes : Hierarchy} {ref : ClassRef} {value : Value} :
    classes.checkSubclass ref value = .fits ↔
      ∃ child, value = .classObject child ∧ classes.Descends child ref := by
  -- It is the class that the value stands for that matters, and not the class of the value.
  cases value with
  | classObject child =>
    simp [Hierarchy.checkSubclass, ← Hierarchy.derives_iff_descends]
  | _ => simp [Hierarchy.checkSubclass]

/-- A value qualifies for a literal if it is one of the named values. -/
theorem checkLiteral_eq_fits {value : Value} {values : List Value} :
    value.checkLiteral values = .fits ↔ ∃ named ∈ values, value.isLiterally named = true := by
  -- The check looks through the named values.
  simp [Value.checkLiteral]

/-- A value fails for a subclass hint if it is a class that does not descend from the one asked for,
or no class at all. -/
theorem checkSubclass_eq_misfit {classes : Hierarchy} {ref : ClassRef} {value : Value}
    {reason : Cause} :
    classes.checkSubclass ref value = .misfit reason ↔
      (∃ child, value = .classObject child ∧ ¬classes.Descends child ref ∧
        .mismatch value (.subclassOf ref) = reason) ∨
      (∀ child, value ≠ .classObject child) ∧ .mismatch value .classObject = reason := by
  -- It is decided by whether the value is a class object, and for one that is by descent.
  cases value with
  | classObject child =>
    simp only [Hierarchy.checkSubclass, ← Hierarchy.derives_iff_descends]
    split
    · next below => simp [below]
    · next apart => simp [apart]
  | _ => simp [Hierarchy.checkSubclass]

/-- A value fails for a literal if it is none of the named values. -/
theorem checkLiteral_eq_misfit {value : Value} {values : List Value} {reason : Cause} :
    value.checkLiteral values = .misfit reason ↔
      (∀ named ∈ values, value.isLiterally named = false) ∧
        .mismatch value (.oneOf values) = reason := by
  -- The names are gone through until one is found, and all of them are shown if none is.
  rw [Value.checkLiteral]
  split
  · next found =>
    -- A value that is one of the named ones is not different from all of them.
    obtain ⟨named, member, same⟩ := List.any_eq_true.mp found
    simp only [reduceCtorEq, false_iff, not_and]
    intro other
    simp [other named member] at same
  · next other =>
    rw [List.any_eq_true] at other
    simp only [not_exists, not_and, Bool.not_eq_true] at other
    simpa using fun _ => other

/-- What is asked of visible contents is asked of no contents where none can be seen. -/
theorem forall_visible_iff {α : Type} (contents : Option (List α)) (asked : α → Prop) :
    (∀ visible, contents = some visible → ∀ part ∈ visible, asked part) ↔
      ∀ part ∈ contents.getD [], asked part := by
  -- Contents that cannot be seen are an empty list.
  cases contents <;> simp

/-- Numbering items changes nothing about what is asked of them. -/
theorem forall_zipIdx_iff {α : Type} (items : List α) (asked : α → Prop) :
    (∀ pair ∈ items.zipIdx, asked pair.1) ↔ ∀ item ∈ items, asked item := by
  -- Dropping the numbers from the numbered items leaves the items.
  rw [← List.forall_mem_map, List.zipIdx_map_fst]

/-- Dropping the numbers from numbered items beside hints leaves the items beside the hints. -/
theorem zip_zipIdx_map_fst {α β : Type} (hints : List β) (items : List α) :
    (hints.zip items.zipIdx).map (fun pair => (pair.1, pair.2.1)) = hints.zip items := by
  -- Only the second list of the pairs changes.
  have dropped : hints.zip items = (hints.zip items.zipIdx).map (Prod.map id Prod.fst) := by
    rw [← List.zip_map_right, List.zipIdx_map_fst]
  rw [dropped]
  rfl

/-- Numbering items changes nothing about what is asked of them together with the hints. -/
theorem forall_zip_zipIdx_iff {α β : Type} (hints : List β) (items : List α)
    (asked : β → α → Prop) :
    (∀ pair ∈ hints.zip items.zipIdx, asked pair.1 pair.2.1) ↔
      ∀ pair ∈ hints.zip items, asked pair.1 pair.2 := by
  -- Without the numbers these are the same pairs.
  rw [← zip_zipIdx_map_fst hints items, List.forall_mem_map]

/-- A value qualifies for a tuple hint if it is a tuple with as many items as there are hints. -/
theorem checkItself_tuple_eq_fits {classes : Hierarchy} {hints : List Hint} {value : Value} :
    (Hint.tuple hints).checkItself classes value = .fits ↔
      classes.Descends value.classRef .tuple ∧
        ∀ items, value.items? = some items → hints.length = items.length := by
  -- Behind the class only the number of visible items is asked about.
  rw [← checkInstance_eq_fits]
  simp only [checkItself]
  cases classes.checkInstance .tuple value with
  | fits =>
    cases visible : value.items? with
    | none => simp
    | some items =>
      -- Another number is told of in one of two ways, and is a misfit in both.
      by_cases same : hints.length = items.length
      · simp [same]
      · by_cases empty : hints.isEmpty = true
        · simp [same, empty]
        · simp [same, empty]
  | misfit reason => simp [Finding.andThen]
  | blocked obstacle => simp [Finding.andThen]

/-- A tuple fails by the number of its visible items alone. -/
theorem checkItself_tuple_eq_misfit {classes : Hierarchy} {hints : List Hint} {value : Value}
    {reason : Cause} (class_ : classes.Descends value.classRef .tuple) :
    (Hint.tuple hints).checkItself classes value = .misfit reason ↔
      ∃ items, value.items? = some items ∧ hints.length ≠ items.length ∧
        .mismatch value
          (if hints.isEmpty then .emptyTuple else .length items.length hints.length) = reason := by
  -- The class is as it should be, and items that cannot be seen are not counted.
  rw [checkItself, checkInstance_eq_fits.mpr class_, Finding.fits_andThen]
  cases visible : value.items? with
  | none => simp
  | some items =>
    by_cases same : hints.length = items.length
    · simp [same]
    · -- One of two expectations is told of, by whether any item was asked for.
      simp only [same, ↓reduceIte, Option.some.injEq, exists_eq_left', ne_eq, not_false_eq_true,
        true_and]
      split <;> simp

/-- A hint that asks for a class before all else finds a value of another class to be none of its
instances. -/
theorem checkItself_eq_misfit_of_apart {classes : Hierarchy} {hint : Hint} {value : Value}
    {ref : ClassRef} (asked : hint.origin? = some ref)
    (apart : ¬classes.Descends value.classRef ref) :
    hint.checkItself classes value = .misfit (.mismatch value (.instanceOf [ref])) := by
  -- The class is asked for before all else, so nothing else is found out.
  have misfit := checkInstance_eq_misfit.mpr ⟨apart, rfl⟩
  cases hint with
  | instanceOf own | collection form item | tupleOf item | mapping form key stored
  | generic origin bases =>
    cases asked
    exact misfit
  | tuple hints =>
    -- The number of items is not asked about any more.
    cases asked
    rw [checkItself, misfit]
    rfl
  | _ => simp [origin?] at asked

/-- What is visited under a tuple hint with as many hints as there are items is each hint beside its
item. -/
theorem forall_tuple_visits_iff {classes : Hierarchy} {hints : List Hint} {value : Value}
    (lengths : ∀ items, value.items? = some items → hints.length = items.length) :
    (∀ visit ∈ (Hint.tuple hints).visits classes value,
        Accepts classes visit.hint visit.value) ↔
      ∀ items, value.items? = some items →
        ∀ pair ∈ hints.zip items, Accepts classes pair.1 pair.2 := by
  cases visible : value.items? with
  | none => cases hints <;> simp [visits, visible]
  | some items =>
    -- The visits number the items, and that changes nothing about what is asked of them.
    simp only [visits, visible, Option.getD_some, lengths items visible, ↓reduceIte,
      List.forall_mem_map, Option.some.injEq, forall_eq']
    exact forall_zip_zipIdx_iff hints items (Accepts classes)

/-- A forward reference accepts a value exactly if its name is known and the class of that name,
which it visits, accepts the value. -/
theorem accepts_forwardRef_iff_visits {classes : Hierarchy} {name : String} {value : Value} :
    Accepts classes (.forwardRef name) value ↔
      (Hint.forwardRef name).checkItself classes value = .fits ∧
        ∀ visit ∈ (Hint.forwardRef name).visits classes value,
          Accepts classes visit.hint visit.value := by
  rw [accepts_forwardRef_iff]
  -- A name that no class has blocks the check, and any other leads to one plain class.
  cases resolved : classes.latest? name with
  | none => simp [checkItself, resolved]
  | some ref => simp [checkItself, visits, resolved, accepts_instanceOf_iff]

/-- A hint accepts a value that itself qualifies and of which all visited pairs are accepted. -/
theorem accepts_iff_visits {hint : Hint} (notUnion : ∀ members, hint ≠ .union members)
    (classes : Hierarchy) (value : Value) :
    Accepts classes hint value ↔ hint.checkItself classes value = .fits ∧
      ∀ visit ∈ hint.visits classes value, Accepts classes visit.hint visit.value := by
  -- For each form, its one way to accept a value lists the same demands as its check.
  cases hint with
  | any => simp [checkItself, visits, Accepts.any]
  | instanceOf ref => simp [checkItself, visits, checkInstance_eq_fits, accepts_instanceOf_iff]
  | union members => exact absurd rfl (notUnion members)
  | collection form item =>
    -- The check numbers the items, which changes nothing about what is asked of them.
    simp only [checkItself, visits, checkInstance_eq_fits, List.forall_mem_map]
    rw [forall_zipIdx_iff _ (Accepts classes item), ← forall_visible_iff]
    exact accepts_collection_iff
  | tuple hints =>
    rw [accepts_tuple_iff, checkItself_tuple_eq_fits]
    exact and_congr_right fun qualified => (forall_tuple_visits_iff qualified.2).symm
  | tupleOf item =>
    simp only [checkItself, visits, checkInstance_eq_fits, List.forall_mem_map]
    rw [forall_zipIdx_iff _ (Accepts classes item), ← forall_visible_iff]
    exact accepts_tupleOf_iff
  | mapping form keyHint valueHint =>
    -- Each entry is visited twice, for its key and for its value.
    simp only [checkItself, visits, checkInstance_eq_fits, List.forall_mem_flatMap,
      List.forall_mem_cons, List.not_mem_nil, false_implies, implies_true, and_true]
    rw [← forall_visible_iff]
    exact accepts_mapping_iff
  | generic origin bases =>
    simp only [checkItself, visits, checkInstance_eq_fits, List.forall_mem_map]
    exact accepts_generic_iff
  | subclassOf ref => simp [checkItself, visits, checkSubclass_eq_fits, accepts_subclassOf_iff]
  | literal named => simp [checkItself, visits, checkLiteral_eq_fits, accepts_literal_iff]
  | forwardRef name => exact accepts_forwardRef_iff_visits
  | callable parameters result | typeVar name | foreign text =>
    -- Hints of these forms accept nothing, and block every check.
    simp only [checkItself, reduceCtorEq, false_and, iff_false]
    intro accepts
    cases accepts

/-- A class blocks no check. -/
theorem checkInstance_ne_blocked {classes : Hierarchy} {ref : ClassRef} {value : Value}
    (obstacle : Obstacle) : classes.checkInstance ref value ≠ .blocked obstacle := by
  -- The test on classes finds one of two things, and neither is an obstacle.
  unfold Hierarchy.checkInstance
  split <;> simp

/-- The number of items of a tuple blocks no check. -/
theorem checkItself_tuple_ne_blocked {classes : Hierarchy} (hints : List Hint) (value : Value)
    (obstacle : Obstacle) : (Hint.tuple hints).checkItself classes value ≠ .blocked obstacle := by
  -- Behind the class, which blocks no check, there are only fits and misfits.
  simp only [checkItself]
  cases qualified : classes.checkInstance .tuple value with
  | fits =>
    -- The items are counted, or cannot be seen, and either way the check goes on or ends.
    rw [Finding.fits_andThen]
    split
    · simp
    · split
      · simp
      · split <;> simp
  | misfit reason => simp [Finding.andThen]
  | blocked other => exact absurd qualified (checkInstance_ne_blocked other)

/-- A subclass hint blocks no check. -/
theorem checkSubclass_ne_blocked {classes : Hierarchy} {ref : ClassRef} {value : Value}
    (obstacle : Obstacle) : classes.checkSubclass ref value ≠ .blocked obstacle := by
  -- It is a fit or one of two misfits.
  unfold Hierarchy.checkSubclass
  split
  · split <;> simp
  · simp

/-- An explained hint blocks no check at the value itself. -/
theorem Explained.checkItself_ne_blocked {classes : Hierarchy} {hint : Hint}
    (explained : Explained classes hint) (value : Value) (obstacle : Obstacle) :
    hint.checkItself classes value ≠ .blocked obstacle := by
  -- Nothing but the form of a hint and an unknown name ever blocks a check.
  cases hint with
  | any | union members => simp [checkItself]
  | instanceOf ref | collection form item | tupleOf item | mapping form key stored
  | generic origin bases => exact checkInstance_ne_blocked obstacle
  | tuple hints => exact checkItself_tuple_ne_blocked hints value obstacle
  | subclassOf ref => exact checkSubclass_ne_blocked obstacle
  | literal named =>
    simp only [checkItself, Value.checkLiteral]
    split <;> simp
  | forwardRef name =>
    -- An explained name is one that some class has.
    obtain ⟨ref, resolved⟩ := Option.isSome_iff_exists.mp explained
    simp [checkItself, resolved]
  | callable parameters result | typeVar name | foreign text => exact explained.elim

/-- Only a hint that is explained leads on to other pairs. -/
theorem explained_of_mem_visits {classes : Hierarchy} {hint : Hint} {value : Value}
    {visit : Visit} (member : visit ∈ hint.visits classes value) : Explained classes hint := by
  cases hint with
  | callable parameters result | typeVar name | foreign text => simp [visits] at member
  | forwardRef name =>
    -- A name that no class has stands for no hint that could be visited.
    cases resolved : classes.latest? name with
    | some ref => simp [Explained, resolved]
    | none => simp [visits, resolved] at member
  | _ => trivial

/-- What a check of a checkable hint visits is checkable. -/
theorem Checkable.visit {classes : Hierarchy} {hint : Hint} (checkable : hint.Checkable classes)
    {value : Value} {visit : Visit} (member : visit ∈ hint.visits classes value) :
    visit.hint.Checkable classes := by
  -- A plain class asks for no explainer of its own.
  exact everywhere_of_mem_visits (fun _ => trivial) checkable member

/-- What a check of a known value visits is known. -/
theorem known_of_mem_visits {classes : Hierarchy} {hint : Hint} {value : Value}
    (known : value.Known classes) {visit : Visit} (member : visit ∈ hint.visits classes value) :
    visit.value.Known classes := by
  -- All that a value shows is known with it.
  exact property_of_mem_visits known (fun _ => known.item) (fun _ => known.entry) member

/-- A check of a checkable hint on a known value decides whether the hint accepts the value. -/
theorem decides_check {classes : Hierarchy} (built : classes.WellBuilt) {hint : Hint}
    {value : Value} (checkable : hint.Checkable classes) (known : value.Known classes) :
    (hint.check classes value).Decides (Accepts classes hint value) := by
  -- Each visited pair is decided in turn, and left out only where a vacuous hint accepts it anyway.
  induction hint, value using visits_induction classes with
  | step hint value visited members =>
    rcases hint.union_or_not with ⟨alternatives, rfl⟩ | notUnion
    · -- A member that is left out accepts the value, just as its check would find.
      rw [check, checkMembers_eq_anyOf]
      apply Finding.Decides.map
      apply (Finding.decides_anyOf _).congr accepts_union_iff.symm
      intro member listed
      have decided := members alternatives rfl member listed (checkable.part listed) known
      exact .unlessVacuous (fun vacuous => accepts_of_isVacuous built vacuous known) decided
    · rw [check_eq_visits notUnion]
      have itself := Finding.decides_eq_fits (checkable.here.checkItself_ne_blocked value)
      apply (itself.andThen _).congr (accepts_iff_visits notUnion classes value).symm
      intro _
      apply Finding.decides_firstOf
      intro visit member
      have visitKnown := known_of_mem_visits known member
      by_cases skipped : visit.Skipped
      · -- The visit is left out, under a hint that accepts every known value.
        rw [Visit.check_of_skipped skipped]
        exact accepts_of_isVacuous built skipped.2 visitKnown
      · have decided := visited visit member (checkable.visit member) visitKnown
        -- The visit is made, and its pair is decided by induction.
        rw [Visit.check_of_not_skipped skipped]
        exact decided.map _

end Hint

end Misfit
