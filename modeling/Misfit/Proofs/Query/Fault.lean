import Misfit.Proofs.Hint.Accepts
import Misfit.Proofs.Query.Answer

/-! The ways in which a value is itself not what a hint asks for, and their words. -/

namespace Misfit

namespace Query

/-- A value is itself not what a hint asks for, with the words for that. -/
inductive Fault (query : Query) : Hint → Value → String → Prop where
  -- The class comes first: a value of another class has no other fault.
  | foreign {hint : Hint} {value : Value} {ref : ClassRef} (asked : hint.origin? = some ref)
      (apart : ¬query.classes.Descends value.classRef ref) :
      Fault query hint value (" not " ++ query.classes.nameOf ref)
  | notEmpty {value : Value} {items : List Value}
      (class_ : query.classes.Descends value.classRef .tuple)
      (visible : value.items? = some items) (filled : items ≠ []) :
      Fault query (.tuple []) value " not empty tuple"
  | length {hints : List Hint} {value : Value} {items : List Value}
      (class_ : query.classes.Descends value.classRef .tuple)
      (visible : value.items? = some items) (filled : hints ≠ [])
      (different : hints.length ≠ items.length) :
      Fault query (.tuple hints) value
        (" length " ++ Decimal.ofNat items.length ++ " not " ++ Decimal.ofNat hints.length)
  | literal {values : List Value} {value : Value}
      (other : ∀ named ∈ values, value.isLiterally named = false) :
      Fault query (.literal values) value (" not " ++ disjunction (values.map query.brief))
  -- Such a hint is about the class that a value stands for, if it stands for one.
  | notClass {ref : ClassRef} {value : Value} (plain : ∀ child, value ≠ .classObject child) :
      Fault query (.subclassOf ref) value " not class"
  | notSubclass {ref child : ClassRef} (apart : ¬query.classes.Descends child ref) :
      Fault query (.subclassOf ref) (.classObject child)
        (" not subclass of " ++ query.classes.nameOf ref)

/-- A cause is a mismatch of a value with an expectation whose words, after the value, are those of
a fault. -/
def FaultOf (query : Query) (hint : Hint) (value : Value) (reason : Cause) : Prop :=
  ∃ expected, reason = .mismatch value expected ∧
    query.Fault hint value (" " ++ expected.text query.classes query.style)

/-- To be no instance of the class that a hint asks for is a fault. -/
theorem faultOf_checkInstance {query : Query} {hint : Hint} {value : Value} {reason : Cause}
    {ref : ClassRef} (asked : hint.origin? = some ref)
    (misfit : query.classes.checkInstance ref value = .misfit reason) :
    query.FaultOf hint value reason := by
  -- The words name the class.
  obtain ⟨apart, rfl⟩ := Hint.checkInstance_eq_misfit.mp misfit
  exact ⟨_, rfl, .foreign asked apart⟩

/-- To be no tuple, or one of another length, is a fault. -/
theorem faultOf_checkTuple {query : Query} {hints : List Hint} {value : Value} {reason : Cause}
    (misfit : (Hint.tuple hints).checkItself query.classes value = .misfit reason) :
    query.FaultOf (.tuple hints) value reason := by
  -- The class is asked for first, and then the number of items.
  by_cases class_ : query.classes.Descends value.classRef .tuple
  · obtain ⟨items, visible, different, rfl⟩ := (Hint.checkItself_tuple_eq_misfit class_).mp misfit
    refine ⟨_, rfl, ?_⟩
    -- The hint without items has words of its own for that.
    cases hints with
    | nil =>
      refine .notEmpty class_ visible ?_
      rintro rfl
      exact different rfl
    | cons first rest => exact .length class_ visible (by simp) different
  · rw [Hint.checkItself_eq_misfit_of_apart rfl class_] at misfit
    cases misfit
    exact ⟨_, rfl, .foreign rfl class_⟩

/-- To be no class, or none that descends from the one asked for, is a fault. -/
theorem faultOf_checkSubclass {query : Query} {ref : ClassRef} {value : Value} {reason : Cause}
    (misfit : query.classes.checkSubclass ref value = .misfit reason) :
    query.FaultOf (.subclassOf ref) value reason := by
  -- Both ways to fail have an expectation of their own.
  rcases Hint.checkSubclass_eq_misfit.mp misfit with ⟨child, rfl, apart, rfl⟩ | ⟨plain, rfl⟩
  · exact ⟨_, rfl, .notSubclass apart⟩
  · exact ⟨_, rfl, .notClass plain⟩

/-- To be none of the named values is a fault. -/
theorem faultOf_checkLiteral {query : Query} {values : List Value} {value : Value}
    {reason : Cause} (misfit : value.checkLiteral values = .misfit reason) :
    query.FaultOf (.literal values) value reason := by
  -- The words list all of the names.
  obtain ⟨other, rfl⟩ := Hint.checkLiteral_eq_misfit.mp misfit
  exact ⟨_, rfl, .literal other⟩

/-- A misfit of the value itself is a fault, worded after the value. -/
theorem fault_of_checkItself {query : Query} {hint : Hint} {value : Value} {reason : Cause}
    (misfit : hint.checkItself query.classes value = .misfit reason) :
    query.FaultOf hint value reason := by
  -- Most forms ask for a class first, and for all but tuples that is the only way to fail.
  cases hint with
  | instanceOf ref | collection form item | tupleOf item | mapping form key stored
  | generic origin bases => exact faultOf_checkInstance rfl misfit
  | tuple hints => exact faultOf_checkTuple misfit
  | subclassOf ref => exact faultOf_checkSubclass misfit
  | literal values => exact faultOf_checkLiteral misfit
  | forwardRef name =>
    -- A name is resolved or not, and neither is a misfit.
    simp only [Hint.checkItself] at misfit
    split at misfit <;> cases misfit
  | _ => cases misfit

/-- A fault is what a check finds at the value itself. -/
theorem Fault.checkItself {query : Query} {hint : Hint} {value : Value} {words : String}
    (fault : query.Fault hint value words) :
    ∃ expected, hint.checkItself query.classes value = .misfit (.mismatch value expected) ∧
      words = " " ++ expected.text query.classes query.style := by
  -- Each way to fail has one expectation, whose words are those of the fault.
  cases fault with
  | @foreign _ _ ref asked apart =>
    exact ⟨.instanceOf [ref], Hint.checkItself_eq_misfit_of_apart asked apart, rfl⟩
  | @notEmpty _ items class_ visible filled =>
    -- No item was asked for, and there are some.
    have different : ([] : List Hint).length ≠ items.length := by
      simpa [eq_comm] using filled
    refine ⟨.emptyTuple, (Hint.checkItself_tuple_eq_misfit class_).mpr ?_, rfl⟩
    exact ⟨items, visible, different, rfl⟩
  | @length hints _ items class_ visible filled different =>
    refine ⟨.length items.length hints.length,
      (Hint.checkItself_tuple_eq_misfit class_).mpr ?_, rfl⟩
    exact ⟨items, visible, different, by simp [filled]⟩
  | @literal values _ other =>
    exact ⟨.oneOf values, Hint.checkLiteral_eq_misfit.mpr ⟨other, rfl⟩, rfl⟩
  | notClass plain =>
    exact ⟨.classObject, Hint.checkSubclass_eq_misfit.mpr (.inr ⟨plain, rfl⟩), rfl⟩
  | @notSubclass ref child apart =>
    exact ⟨.subclassOf ref,
      Hint.checkSubclass_eq_misfit.mpr (.inl ⟨child, rfl, apart, rfl⟩), rfl⟩

/-- A check under an explained hint finds a fit at the value itself exactly if that is no fault. -/
theorem checkItself_eq_fits_iff {query : Query} {hint : Hint} {value : Value}
    (explained : hint.Explained query.classes) :
    hint.checkItself query.classes value = .fits ↔ ∀ words, ¬query.Fault hint value words := by
  -- Faults are exactly the misfits, and under an explained hint the rest are fits.
  constructor
  · intro itself words fault
    obtain ⟨expected, misfit, _⟩ := fault.checkItself
    rw [itself] at misfit
    cases misfit
  · intro sound
    cases found : hint.checkItself query.classes value with
    | fits => rfl
    | misfit reason =>
      -- A misfit would be a fault in some words.
      obtain ⟨expected, _, fault⟩ := fault_of_checkItself found
      exact absurd fault (sound _)
    | blocked obstacle => exact absurd found (explained.checkItself_ne_blocked value obstacle)

end Query

end Misfit
