import Misfit.Hierarchy.Derives
import Misfit.Finding
import Misfit.Value.Equality

/-! What a check of a value against a hint finds, up to the first part of the value that does not
fit, apart from how any of it is put into words. -/

namespace Misfit

/-- Checks that a value is an instance of a class. -/
def Hierarchy.checkInstance (classes : Hierarchy) (ref : ClassRef) (value : Value) :
    Finding Cause :=
  if classes.derives value.classRef ref then .fits
  else .misfit (.mismatch value (.instanceOf [ref]))

/-- Checks that a value is a class object that descends from a class. -/
def Hierarchy.checkSubclass (classes : Hierarchy) (ref : ClassRef) (value : Value) :
    Finding Cause :=
  match value with
  | .classObject child =>
    if classes.derives child ref then .fits
    else .misfit (.mismatch value (.subclassOf ref))
  | _ => .misfit (.mismatch value .classObject)

/-- Checks that a value is one of the named values. -/
def Value.checkLiteral (value : Value) (named : List Value) : Finding Cause :=
  if named.any value.isLiterally then .fits else .misfit (.mismatch value (.oneOf named))

/-- The class that a hint is, if it is a plain class. -/
def Hint.plainClass? : Hint → Option ClassRef
  | .instanceOf ref => some ref
  | _ => none

/-- What belongs to a hint, if that is no plain class. -/
def Hint.ofOther? {α : Type} : Hint × α → Option α
  | (.instanceOf _, _) => none
  | (_, belonging) => some belonging

/-- The cause of a value that fits no member of a union, from the cause under each member. Members
that are plain classes are reported together, before all others. -/
def Cause.ofMembers (value : Value) (members : List Hint) (causes : List Cause) : Cause :=
  let refs := members.filterMap Hint.plainClass?
  let together := if refs.isEmpty then [] else [.mismatch value (.instanceOf refs)]
  .alternatives value members (together ++ (members.zip causes).filterMap Hint.ofOther?)

namespace Hint

mutual

/-- Checks a value against a hint. -/
def check (classes : Hierarchy) (hint : Hint) (value : Value) : Finding Cause :=
  match hint with
  | .any => .fits
  | .instanceOf ref => classes.checkInstance ref value
  | .union members => (checkMembers classes members value).map (.ofMembers value members)
  | .collection form item =>
    (classes.checkInstance form.origin value).andThen fun _ =>
      Finding.unlessVacuous item fun _ =>
        -- A value whose items cannot be seen is given the benefit of the doubt.
        (value.items?.getD []).zipIdx |> Finding.firstOf fun (part, position) =>
          let step := if form.hasPositions then .index position else .item
          (check classes item part).inside value step
  | .tuple hints =>
    (classes.checkInstance .tuple value).andThen fun _ =>
      match value.items? with
      | none => .fits
      | some items =>
        if hints.length == items.length then checkEach classes value hints items.zipIdx
        else if hints.isEmpty then .misfit (.mismatch value .emptyTuple)
        else .misfit (.mismatch value (.length items.length hints.length))
  | .tupleOf item =>
    (classes.checkInstance .tuple value).andThen fun _ =>
      Finding.unlessVacuous item fun _ =>
        (value.items?.getD []).zipIdx |> Finding.firstOf fun (part, position) =>
          (check classes item part).inside value (.index position)
  | .mapping form keyHint valueHint =>
    (classes.checkInstance form.origin value).andThen fun _ =>
      (value.pairs?.getD []) |> Finding.firstOf fun (key, stored) =>
        -- Of each entry the key comes first.
        (Finding.unlessVacuous keyHint fun _ =>
          (check classes keyHint key).inside value .key).andThen fun _ =>
        Finding.unlessVacuous valueHint fun _ =>
          (check classes valueHint stored).inside value (.valueAt key)
  | .generic origin bases =>
    (classes.checkInstance origin value).andThen fun _ => checkBases classes bases value
  | .subclassOf ref => classes.checkSubclass ref value
  | .literal named => value.checkLiteral named
  | .forwardRef name =>
    match classes.latest? name with
    | some ref => classes.checkInstance ref value
    | none => .blocked (.unresolved name)
  | .callable _ _ => .blocked (.noExplainer hint .callable)
  | .typeVar _ => .blocked (.noExplainer hint .typeVar)
  | .foreign _ => .blocked (.unknownForm hint)

/-- Checks a value against hints of which it need fit only one; it is a misfit if it fits none,
for one cause under each. -/
def checkMembers (classes : Hierarchy) (hints : List Hint) (value : Value) : Finding (List Cause) :=
  match hints with
  | [] => .misfit []
  | hint :: rest =>
    match Finding.unlessVacuous hint fun _ => check classes hint value with
    | .fits => .fits
    | .misfit cause => (checkMembers classes rest value).map (cause :: ·)
    | .blocked obstacle => .blocked obstacle

/-- Checks items, each with its position, against the hints at the same places. -/
def checkEach (classes : Hierarchy) (whole : Value) (hints : List Hint)
    (items : List (Value × Nat)) : Finding Cause :=
  match hints, items with
  | hint :: hints, (part, position) :: items =>
    (Finding.unlessVacuous hint fun _ =>
      (check classes hint part).inside whole (.index position)).andThen fun _ =>
    checkEach classes whole hints items
  | _, _ => .fits

/-- Checks a value against hints all of which it has to fit. -/
def checkBases (classes : Hierarchy) (hints : List Hint) (value : Value) : Finding Cause :=
  match hints with
  | [] => .fits
  | hint :: rest => (check classes hint value).andThen fun _ => checkBases classes rest value

end

end Hint

end Misfit
