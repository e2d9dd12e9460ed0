import Misfit.Proofs.Hint.Accepts
import Misfit.Proofs.Query.Answer

/-! Checks that are left out under vacuous hints, and the verdict that they would have led to. -/

namespace Misfit

/-- The hierarchy has no place for the class of a value: it is neither the root nor defined. -/
def Value.Unplaced (classes : Hierarchy) (value : Value) : Prop :=
  value.classRef ≠ .object ∧ classes.contains value.classRef = false

namespace Hint

/-- The root turns away a value for whose class there is no place. -/
def TurnsAway (classes : Hierarchy) (hint : Hint) (value : Value) : Prop :=
  hint = .instanceOf .object ∧ value.Unplaced classes

/-- A value fits a vacuous hint unless the hint is the root and turns it away. -/
theorem check_eq_fits_of_isVacuous {classes : Hierarchy} {hint : Hint} {value : Value}
    (vacuous : hint.isVacuous = true) :
    hint.check classes value = .fits ↔ ¬hint.TurnsAway classes value := by
  -- The hint for any value turns nothing away, so the root is the case in question.
  cases hint with
  | any => simp [check, TurnsAway]
  | instanceOf ref =>
    have root : ref = .object := by simpa [isVacuous, isInstanceOf] using vacuous
    subst root
    -- Besides the root itself only the defined classes descend from it.
    have below : classes.Descends value.classRef .object ↔
        value.classRef = .object ∨ classes.contains value.classRef = true := by
      constructor
      · exact Hierarchy.Descends.root_cases
      · rintro (same | defined)
        · rw [same]
          exact .refl
        · exact .root defined
    rw [check, checkInstance_eq_fits, below, TurnsAway, Value.Unplaced, ← Bool.not_eq_true]
    tauto
  | _ => simp [isVacuous, isInstanceOf] at vacuous

/-- A value is made up of others as a hint asks, which leaves pairs of a hint and a value to look
at, in this order. -/
inductive Children (classes : Hierarchy) : Hint → Value → List (Hint × Value) → Prop where
  | collection {form : CollectionForm} {item : Hint} {value : Value} {items : List Value}
      (class_ : classes.derives value.classRef form.origin = true)
      (visible : value.items? = some items) :
      Children classes (.collection form item) value (items.map fun part => (item, part))
  | tuple {hints : List Hint} {value : Value} {items : List Value}
      (class_ : classes.derives value.classRef .tuple = true)
      (visible : value.items? = some items) (length : hints.length = items.length) :
      Children classes (.tuple hints) value (hints.zip items)
  | tupleOf {item : Hint} {value : Value} {items : List Value}
      (class_ : classes.derives value.classRef .tuple = true)
      (visible : value.items? = some items) :
      Children classes (.tupleOf item) value (items.map fun part => (item, part))
  | mapping {form : MappingForm} {keyHint valueHint : Hint} {value : Value}
      {entries : List (Value × Value)}
      (class_ : classes.derives value.classRef form.origin = true)
      (visible : value.pairs? = some entries) :
      Children classes (.mapping form keyHint valueHint) value
        (entries.flatMap fun entry => [(keyHint, entry.1), (valueHint, entry.2)])
  -- A union of one member asks that member about the value itself.
  | lone {member : Hint} {value : Value} :
      Children classes (.union [member]) value [(member, value)]

/-- A visit finds what a check of its pair finds, unless the pair is one that is turned away. -/
theorem Visit.verdict_check {ε : Type} (word : Obstacle → ε) {classes : Hierarchy} {visit : Visit}
    (placed : ¬visit.hint.TurnsAway classes visit.value) (whole : Value) :
    (visit.check classes whole).verdict word =
      (visit.hint.check classes visit.value).verdict word := by
  -- Leaving out a check matters only where its pair would be turned away.
  by_cases skipped : visit.Skipped
  · -- The check that is left out would have found the same fit.
    rw [check_of_skipped skipped, (check_eq_fits_of_isVacuous skipped.2).mpr placed]
  · rw [check_of_not_skipped skipped, Finding.verdict_map]

/-- The children of a value under any hint but a union are what its check visits, as parts. -/
theorem Children.visits {classes : Hierarchy} {hint : Hint} {value : Value}
    {children : List (Hint × Value)} (made : hint.Children classes value children)
    (notUnion : ∀ members, hint ≠ .union members) :
    hint.checkItself classes value = .fits ∧
      (hint.visits classes value).map (fun visit => (visit.hint, visit.value)) = children ∧
      ∀ visit ∈ hint.visits classes value, visit.step.isSome = true := by
  -- For each way to make children, the class is as it should be and the contents can be seen.
  cases made with
  | @collection form item value items class_ visible
  | @tupleOf item value items class_ visible =>
    have itself := checkInstance_eq_fits.mpr ((Hierarchy.derives_iff_descends _ _ _).mp class_)
    refine ⟨itself, ?_, ?_⟩
    · -- The positions of the items are told of in causes only.
      simp only [Hint.visits, visible, Option.getD_some, List.map_map]
      show items.zipIdx.map ((fun part => (item, part)) ∘ Prod.fst) = _
      rw [← List.map_map, List.zipIdx_map_fst]
    · -- Every one of them is visited as an item.
      simp only [Hint.visits, List.forall_mem_map]
      simp
  | @tuple hints value items class_ visible length =>
    have descends := (Hierarchy.derives_iff_descends _ _ _).mp class_
    refine ⟨checkItself_tuple_eq_fits.mpr ⟨descends, by simp [visible, length]⟩, ?_, ?_⟩
    · -- There are as many items as hints, so all pairs are visited.
      rw [← zip_zipIdx_map_fst]
      simp [Hint.visits, visible, length]
    · simp only [Hint.visits, visible, Option.getD_some, length, ↓reduceIte, List.forall_mem_map]
      simp
  | @mapping form keyHint valueHint value entries class_ visible =>
    have itself := checkInstance_eq_fits.mpr ((Hierarchy.derives_iff_descends _ _ _).mp class_)
    refine ⟨itself, ?_, ?_⟩
    · -- Each entry makes two children and is visited twice, first for its key.
      simp [Hint.visits, visible, List.map_flatMap]
    · simp only [Hint.visits, List.forall_mem_flatMap]
      simp
  | lone => exact absurd rfl (notUnion _)

/-- A lone member of a union is asked unless it is vacuous. -/
theorem check_lone (classes : Hierarchy) (member : Hint) (value : Value) :
    (Hint.union [member]).check classes value =
      (Finding.anyOf [Finding.unlessVacuous member fun _ => member.check classes value]).map
        (.ofMembers value [member]) := by
  -- There is one member to go through.
  rw [check, checkMembers_eq_anyOf, List.map_singleton]

/-- A check finds what checks of all children find in turn, unless one of them is turned away. -/
theorem Children.verdict_check {ε : Type} (word : Obstacle → ε) {classes : Hierarchy} {hint : Hint}
    {value : Value} {children : List (Hint × Value)} (made : hint.Children classes value children)
    (placed : ∀ child ∈ children, ¬child.1.TurnsAway classes child.2) :
    (hint.check classes value).verdict word =
      (Finding.firstOf (fun child => child.1.check classes child.2) children).verdict word := by
  -- The lone member of a union is no visit, but is left out or asked in the same way.
  rcases hint.union_or_not with ⟨members, rfl⟩ | notUnion
  · cases made with
    | @lone member =>
      have fits : member.isVacuous = true → member.check classes value = .fits := fun vacuous =>
        (check_eq_fits_of_isVacuous vacuous).mpr (placed (member, value) (by simp))
      rw [check_lone, Finding.verdict_map, Finding.verdict_anyOf_singleton, Finding.firstOf_cons,
        Finding.firstOf_nil, Finding.andThen_fits, Finding.unlessVacuous]
      split
      · next vacuous => rw [fits vacuous]
      · rfl
  · -- Under all other hints the children are what is visited, in the same order.
    obtain ⟨itself, pairs, _⟩ := made.visits notUnion
    rw [check_eq_visits notUnion, itself, Finding.fits_andThen, ← pairs, Finding.firstOf_map]
    apply Finding.verdict_firstOf_congr
    rw [List.forall₂_same]
    intro visit member
    have child : (visit.hint, visit.value) ∈ children := pairs ▸ List.mem_map_of_mem member
    exact visit.verdict_check word (placed _ child) value

/-- Under vacuous hints alone, no child is looked at. -/
theorem Children.check_of_isVacuous {classes : Hierarchy} {hint : Hint} {value : Value}
    {children : List (Hint × Value)} (made : hint.Children classes value children)
    (vacuous : ∀ child ∈ children, child.1.isVacuous = true) :
    hint.check classes value = .fits := by
  -- The value itself qualifies, and all that could be asked of its children is left out.
  rcases hint.union_or_not with ⟨members, rfl⟩ | notUnion
  · cases made with
    | @lone member =>
      have skipped : member.isVacuous = true := vacuous (member, value) (by simp)
      simp [check_lone, Finding.unlessVacuous, skipped, Finding.anyOf, Finding.map]
  · obtain ⟨itself, pairs, inside⟩ := made.visits notUnion
    rw [check_eq_visits notUnion, itself, Finding.fits_andThen, Finding.firstOf_eq_fits]
    -- Every visit is one of a child, and so one of those left out.
    intro visit member
    have child : (visit.hint, visit.value) ∈ children := pairs ▸ List.mem_map_of_mem member
    exact Visit.check_of_skipped ⟨inside visit member, vacuous _ child⟩ classes value

end Hint

namespace Query

/-- The verdict of queries made in turn, up to the first whose value does not fit. -/
def verdictInTurn : List Query → Except Failure Bool
  | [] => .ok true
  | query :: rest =>
    match query.verdict with
    | .ok true => verdictInTurn rest
    | settled => settled

/-- Queries about pairs, made in turn, have the verdict of a search through the pairs. -/
theorem verdictInTurn_eq (query : Query) (pairs : List (Hint × Value)) :
    verdictInTurn (pairs.map query.onPair) =
      (Finding.firstOf (fun pair => pair.1.check query.classes pair.2) pairs).verdict
        (Obstacle.failure query.classes query.label) := by
  -- Both go on to the next pair after a fit only.
  induction pairs with
  | nil => rfl
  | cons pair rest ih =>
    rw [List.map_cons, verdictInTurn, verdict_eq, Finding.firstOf_cons, ih]
    simp only [onPair, change, Option.getD_some, Option.getD_none]
    cases pair.1.check query.classes pair.2 <;> rfl

/-- A value fits a vacuous hint exactly unless the hint is the root and has no place for the class
of the value. So a value that is made up of others as its hint asks has the verdict that queries
about all its children would have in turn, if none of them is turned away like that. Where all their
hints are vacuous the value fits, and then this is the verdict of the children only if none is. -/
theorem verdict_eq_inTurn (query : Query) :
    (∀ hint value, hint.isVacuous = true →
      ((query.onPair (hint, value)).cause = .ok none ↔ ¬hint.TurnsAway query.classes value)) ∧
      ∀ hint value children, hint.Children query.classes value children →
        ((∀ child ∈ children, ¬child.1.TurnsAway query.classes child.2) →
          (query.onPair (hint, value)).verdict = verdictInTurn (children.map query.onPair)) ∧
        ((∀ child ∈ children, child.1.isVacuous = true) →
          (query.onPair (hint, value)).cause = .ok none ∧
            ((query.onPair (hint, value)).verdict = verdictInTurn (children.map query.onPair) ↔
              ∀ child ∈ children, ¬child.1.TurnsAway query.classes child.2)) := by
  -- Vacuous hints are settled by one equivalence, and children by the checks of their parents.
  refine ⟨?_, ?_⟩
  · intro hint value vacuous
    exact cause_eq_none_iff.trans (Hint.check_eq_fits_of_isVacuous vacuous)
  · intro hint value children made
    rw [verdictInTurn_eq, verdict_eq]
    refine ⟨made.verdict_check _, ?_⟩
    intro vacuous
    have fits := made.check_of_isVacuous vacuous
    have each : (∀ child ∈ children, child.1.check query.classes child.2 = .fits) ↔
        ∀ child ∈ children, ¬child.1.TurnsAway query.classes child.2 :=
      forall₂_congr fun child member => Hint.check_eq_fits_of_isVacuous (vacuous child member)
    refine ⟨cause_eq_none_iff.mpr fits, ?_⟩
    -- Against a fit the children's verdict is the same exactly if each of them fits.
    rw [← each, ← Finding.firstOf_eq_fits, ← Finding.verdict_eq_fits]
    have verdict : ((query.onPair (hint, value)).hint.check (query.onPair (hint, value)).classes
        (query.onPair (hint, value)).value).verdict (Obstacle.failure query.classes query.label) =
        .ok true := Finding.verdict_eq_fits.mpr fits
    exact ⟨fun same => same.symm.trans verdict, fun same => verdict.trans same.symm⟩

/-- A tuple against hints of which the first two are vacuous: the children are told apart only by
the third, and none of them is turned away. -/
theorem verdict_eq_inTurn_mixed_tuple :
    let query : Query := ⟨.none, .any, "", "f() parameter x", .initial, {}⟩
    let hints : List Hint := [.any, .instanceOf .object, .instanceOf .int]
    let items : List Value := [.object ⟨99⟩, .str "a", .str "b"]
    let value : Value := .container .tuple items
    (Hint.any).isVacuous = true ∧ (Hint.tuple hints).Children .initial value (hints.zip items) ∧
      (∀ child ∈ hints.zip items, ¬child.1.TurnsAway .initial child.2) ∧
      (query.onPair (.any, .object ⟨99⟩)).cause = .ok none ∧
      (query.onPair (.tuple hints, value)).verdict =
        verdictInTurn ((hints.zip items).map query.onPair) ∧
      (query.onPair (.tuple hints, value)).verdict = .ok false := by
  intro query hints items value
  obtain ⟨vacuous, made⟩ := verdict_eq_inTurn query
  have children : (Hint.tuple hints).Children .initial value (hints.zip items) :=
    .tuple (by decide) rfl rfl
  -- The object of an unknown class is looked at under the hint for any value only.
  have placed : ∀ child ∈ hints.zip items, ¬child.1.TurnsAway .initial child.2 := by
    have first : ¬Hint.any.TurnsAway .initial (.object ⟨99⟩) := fun away => nomatch away.1
    have second : ¬(Hint.instanceOf .object).TurnsAway .initial (.str "a") := fun away =>
      absurd away.2.2 (by decide)
    have third : ¬(Hint.instanceOf .int).TurnsAway .initial (.str "b") := fun away =>
      absurd away.2.2 (by decide)
    simpa [hints, items] using ⟨first, second, third⟩
  have fits := (vacuous .any (.object ⟨99⟩) rfl).mpr (by simp [Hint.TurnsAway])
  exact ⟨rfl, children, placed, fits, (made _ _ _ children).1 placed, by decide +kernel⟩

/-- An object whose class is not defined does not fit the root, although that hint is vacuous; in a
list it is passed over. -/
theorem cause_object_of_undefined_class :
    let query : Query := ⟨.object ⟨99⟩, .instanceOf .object, "", "f() parameter x", .initial, {}⟩
    let list : Value := .container .list [.object ⟨99⟩]
    query.hint.isVacuous = true ∧
      query.cause = .ok (some "<unknown class> <<unknown class> object> not object") ∧
      (query.onPair (.collection .list (.instanceOf .object), list)).cause = .ok none := by
  -- The class of the object is in no record, so not even the root is above it.
  decide +kernel

end Query

end Misfit
