import Misfit.Hint.Basic

/-! Why a value does not fit a hint, apart from how that is worded. -/

namespace Misfit

/-- What a value was asked to be and is not. -/
inductive Expectation where
  /-- An instance of one of the classes. -/
  | instanceOf (refs : List ClassRef)
  /-- One of the named values. -/
  | oneOf (values : List Value)
  /-- A class object. -/
  | classObject
  /-- A class object that descends from a class. -/
  | subclassOf (ref : ClassRef)
  /-- A tuple without items. -/
  | emptyTuple
  /-- A tuple of another length. -/
  | length (actual expected : Nat)

/-- The way from a value to a part of it. -/
inductive Step where
  /-- The item at a position, counted from zero. -/
  | index (position : Nat)
  /-- An item of a collection without positions. -/
  | item
  /-- A key. -/
  | key
  /-- The value stored under a key. -/
  | valueAt (key : Value)

/-- Why a value does not fit a hint. -/
inductive Cause where
  /-- The value itself is not what was asked for. -/
  | mismatch (value : Value) (expected : Expectation)
  /-- A part of the value is at fault. -/
  | within (value : Value) (step : Step) (inner : Cause)
  /-- The value fits no member of a union, for the given causes. -/
  | alternatives (value : Value) (members : List Hint) (causes : List Cause)

end Misfit
