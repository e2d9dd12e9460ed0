import Misfit.Hint.Check
import Misfit.Proofs.Everywhere
import Misfit.Proofs.Finding
import Misfit.Proofs.Hint.Parts

/-! A check looks at a value itself, and then at pairs of a part and its hint in a fixed order. -/

namespace Misfit

namespace Hint

/-- A pair of a hint and a value that a check looks at, with the way that leads to that value if it
is a part of another one. -/
structure Visit where
  step : Option Step
  hint : Hint
  value : Value

/-- The pairs that a check looks at once the value itself qualifies, in their order. -/
def visits (classes : Hierarchy) (hint : Hint) (value : Value) : List Visit :=
  match hint with
  -- Where no contents can be seen there is nothing to visit.
  | .collection form item =>
    (value.items?.getD []).zipIdx.map fun (part, position) =>
      ⟨some (if form.hasPositions then .index position else .item), item, part⟩
  | .tuple hints =>
    -- Items are passed over when there are not as many of them as hints.
    let items := value.items?.getD []
    if hints.length = items.length then
      (hints.zip items.zipIdx).map fun (hint, part, position) =>
        ⟨some (.index position), hint, part⟩
    else []
  | .tupleOf item =>
    (value.items?.getD []).zipIdx.map fun (part, position) =>
      ⟨some (.index position), item, part⟩
  | .mapping _ keyHint valueHint =>
    -- Of each entry the key comes first.
    (value.pairs?.getD []).flatMap fun (key, stored) =>
      [⟨some .key, keyHint, key⟩, ⟨some (.valueAt key), valueHint, stored⟩]
  -- The same value is looked at again, under other hints.
  | .generic _ bases => bases.map fun base => ⟨none, base, value⟩
  | .forwardRef name =>
    match classes.latest? name with
    | some ref => [⟨none, .instanceOf ref, value⟩]
    | none => []
  | _ => []

/-- What a check asks of a value before it looks at any other pair. -/
def checkItself (classes : Hierarchy) (hint : Hint) (value : Value) : Finding Cause :=
  match hint with
  -- A union asks nothing of the value but through its members.
  | .any | .union _ => .fits
  | .instanceOf ref => classes.checkInstance ref value
  | .collection form _ => classes.checkInstance form.origin value
  | .tuple hints =>
    (classes.checkInstance .tuple value).andThen fun _ =>
      match value.items? with
      | none => .fits
      | some items =>
        -- The number of items is asked about before any of them is looked at.
        if hints.length = items.length then .fits
        else if hints.isEmpty then .misfit (.mismatch value .emptyTuple)
        else .misfit (.mismatch value (.length items.length hints.length))
  | .tupleOf _ => classes.checkInstance .tuple value
  | .mapping form _ _ => classes.checkInstance form.origin value
  | .generic origin _ => classes.checkInstance origin value
  | .subclassOf ref => classes.checkSubclass ref value
  | .literal named => value.checkLiteral named
  | .forwardRef name =>
    match classes.latest? name with
    | some _ => .fits
    | none => .blocked (.unresolved name)
  | .callable _ _ => .blocked (.noExplainer hint .callable)
  | .typeVar _ => .blocked (.noExplainer hint .typeVar)
  | .foreign _ => .blocked (.unknownForm hint)

/-- The class whose instances a hint asks for, if it asks for a class before all else. -/
def origin? : Hint → Option ClassRef
  | .instanceOf ref => some ref
  | .collection form _ => some form.origin
  | .tuple _ | .tupleOf _ => some .tuple
  | .mapping form _ _ => some form.origin
  | .generic origin _ => some origin
  | _ => none

/-- The ways in which a check goes on from a hint and a value to a further pair. All but one are of
a part of the hint and of something that can be seen of the value. -/
inductive Onward (classes : Hierarchy) (hint : Hint) (value : Value) : Visit → Prop where
  | item {step : Step} {inner : Hint} {part : Value} (within : inner ∈ hint.parts)
      (visible : part ∈ value.items?.getD []) (noKey : ∀ key, step ≠ .valueAt key) :
      Onward classes hint value ⟨some step, inner, part⟩
  | key {inner : Hint} {entry : Value × Value} (within : inner ∈ hint.parts)
      (visible : entry ∈ value.pairs?.getD []) :
      Onward classes hint value ⟨some .key, inner, entry.1⟩
  | stored {inner : Hint} {entry : Value × Value} (within : inner ∈ hint.parts)
      (visible : entry ∈ value.pairs?.getD []) :
      Onward classes hint value ⟨some (.valueAt entry.1), inner, entry.2⟩
  | again {inner : Hint} (within : inner ∈ hint.parts) :
      Onward classes hint value ⟨none, inner, value⟩
  -- The class that a name stands for is no part of the hint.
  | named {name : String} {ref : ClassRef} (same : hint = .forwardRef name)
      (resolved : classes.latest? name = some ref) :
      Onward classes hint value ⟨none, .instanceOf ref, value⟩

/-- A check goes on in these ways only. -/
theorem onward_of_mem_visits {classes : Hierarchy} {hint : Hint} {value : Value} {visit : Visit}
    (member : visit ∈ hint.visits classes value) : Onward classes hint value visit := by
  -- Each form reaches its visits through one list, so membership there names hint and value.
  cases hint with
  | collection form item =>
    obtain ⟨⟨part, position⟩, listed, rfl⟩ := List.mem_map.mp member
    refine .item (by simp [parts]) (List.fst_mem_of_mem_zipIdx listed) fun key => ?_
    split <;> simp
  | tupleOf item =>
    obtain ⟨⟨part, position⟩, listed, rfl⟩ := List.mem_map.mp member
    exact .item (by simp [parts]) (List.fst_mem_of_mem_zipIdx listed) (by simp)
  | tuple hints =>
    -- Pairs are of a hint and an item, and where they are not made there is no visit.
    simp only [visits] at member
    split at member
    · obtain ⟨⟨hint, part, position⟩, paired, rfl⟩ := List.mem_map.mp member
      obtain ⟨inner, listed⟩ := List.of_mem_zip paired
      exact .item inner (List.fst_mem_of_mem_zipIdx listed) (by simp)
    · simp at member
  | mapping form keyHint valueHint =>
    -- Each entry is visited twice, for its key and for what is stored under it.
    obtain ⟨entry, listed, member⟩ := List.mem_flatMap.mp member
    simp only [List.mem_cons, List.not_mem_nil, or_false] at member
    rcases member with rfl | rfl
    · exact .key (by simp [parts]) listed
    · exact .stored (by simp [parts]) listed
  | generic origin bases =>
    obtain ⟨base, listed, rfl⟩ := List.mem_map.mp member
    exact .again listed
  | forwardRef name =>
    -- A name that no class has leads nowhere.
    simp only [visits] at member
    split at member
    · next ref resolved =>
      rw [List.mem_singleton.mp member]
      exact .named rfl resolved
    · simp at member
  | _ => simp [visits] at member

/-- Under any hint but a name the visited hints are parts of that hint. -/
theorem part_of_mem_visits {classes : Hierarchy} {hint : Hint}
    (notName : ∀ name, hint ≠ .forwardRef name) {value : Value} {visit : Visit}
    (member : visit ∈ hint.visits classes value) : visit.hint ∈ hint.parts := by
  -- The one way that leads elsewhere starts from a name.
  cases onward_of_mem_visits member with
  | item within | key within | stored within | again within => exact within
  | named same _ => exact absurd same (notName _)

/-- Under a name only the class that it stands for is visited, with the value itself. -/
theorem mem_visits_forwardRef {classes : Hierarchy} {name : String} {value : Value}
    {visit : Visit} :
    visit ∈ (Hint.forwardRef name).visits classes value ↔
      ∃ ref, classes.latest? name = some ref ∧ visit = ⟨none, .instanceOf ref, value⟩ := by
  -- A name that no class has leads to no visit.
  cases found : classes.latest? name <;> simp [visits, found]

/-- A visited hint is a part of the hint, or the class that a name stands for. -/
theorem hint_of_mem_visits {classes : Hierarchy} {hint : Hint} {value : Value} {visit : Visit}
    (member : visit ∈ hint.visits classes value) :
    visit.hint ∈ hint.parts ∨ ∃ ref, visit.hint = .instanceOf ref := by
  -- Only a name leads to a hint that is not written inside the hint.
  cases onward_of_mem_visits member with
  | item within | key within | stored within | again within => exact .inl within
  | named _ _ => exact .inr ⟨_, rfl⟩

/-- What holds everywhere in a hint, and of every plain class, holds everywhere in the hints that a
check visits. -/
theorem everywhere_of_mem_visits {property : Hint → Prop}
    (plain : ∀ ref, property (.instanceOf ref)) {hint : Hint}
    (everywhere : Everywhere parts property hint) {classes : Hierarchy} {value : Value}
    {visit : Visit} (member : visit ∈ hint.visits classes value) :
    Everywhere parts property visit.hint := by
  -- The class that a name stands for has no parts, and all other visited hints are parts.
  rcases hint_of_mem_visits member with part | ⟨ref, named⟩
  · exact everywhere.part part
  · rw [named]
    exact .leaf (plain ref) rfl

/-- What holds of a value and of all that can be seen inside holds of the values that a check
visits. -/
theorem property_of_mem_visits {property : Value → Prop} {value : Value} (whole : property value)
    (item : ∀ part ∈ value.items?.getD [], property part)
    (entry : ∀ entry ∈ value.pairs?.getD [], property entry.1 ∧ property entry.2)
    {classes : Hierarchy} {hint : Hint} {visit : Visit}
    (member : visit ∈ hint.visits classes value) : property visit.value := by
  -- A visited value is the whole, one of its items, or the key or the value of one of its entries.
  cases onward_of_mem_visits member with
  | item _ visible => exact item _ visible
  | key _ visible => exact (entry _ visible).1
  | stored _ visible => exact (entry _ visible).2
  | again | named => exact whole

/-- A step to a stored value goes by its key. -/
theorem key_of_mem_visits {classes : Hierarchy} {hint : Hint} {value : Value} {visit : Visit}
    (member : visit ∈ hint.visits classes value) {key : Value}
    (step : visit.step = some (.valueAt key)) : ∃ entry ∈ value.pairs?.getD [], entry.1 = key := by
  -- Only one of the ways on leads to a stored value.
  cases onward_of_mem_visits member with
  | item _ _ noKey => exact absurd (Option.some.inj step) (noKey key)
  | stored _ visible =>
    cases step
    exact ⟨_, visible, rfl⟩
  | key | again | named => cases step

/-- Where no step is taken, the value itself is looked at again. -/
theorem value_of_mem_visits_of_step_none {classes : Hierarchy} {hint : Hint} {value : Value}
    {visit : Visit} (member : visit ∈ hint.visits classes value) (stays : visit.step = none) :
    visit.value = value := by
  -- All ways on to a part of the value take a step.
  cases onward_of_mem_visits member with
  | again | named => rfl
  | item | key | stored => cases stays

/-- What holds of a pair whenever it holds of the visited pairs, and under a union of the same value
under each member, holds of every pair. -/
theorem visits_induction (classes : Hierarchy) {motive : Hint → Value → Prop}
    (step : ∀ hint value, (∀ visit ∈ hint.visits classes value, motive visit.hint visit.value) →
      (∀ members, hint = .union members → ∀ member ∈ members, motive member value) →
      motive hint value) (hint : Hint) (value : Value) : motive hint value := by
  -- The class that a name stands for is no part of the hint, but nothing is visited under it.
  have plain : ∀ ref value, motive (.instanceOf ref) value := fun ref value =>
    step _ _ (by simp [visits]) (by simp)
  induction hint using parts_induction generalizing value with
  | step hint ih =>
    apply step
    · -- A visited hint is a part, and smaller, or a plain class.
      intro visit member
      rcases hint_of_mem_visits member with part | ⟨ref, named⟩
      · exact ih visit.hint part visit.value
      · rw [named]
        exact plain ref visit.value
    · intro members same member listed
      subst same
      exact ih member listed value

/-- Whether a visit is left out: that is so for a part under a vacuous hint. -/
def Visit.Skipped (visit : Visit) : Prop := visit.step.isSome ∧ visit.hint.isVacuous

/-- The finding on a visited pair, as a finding on the whole value. -/
def Visit.check (classes : Hierarchy) (whole : Value) (visit : Visit) : Finding Cause :=
  match visit.step with
  | none => visit.hint.check classes visit.value
  | some step =>
    Finding.unlessVacuous visit.hint fun _ =>
      (visit.hint.check classes visit.value).inside whole step

/-- The cause of a misfit of a visited pair, as the cause of a misfit of the whole value. -/
def Visit.reason (visit : Visit) (whole : Value) (inner : Cause) : Cause :=
  match visit.step with
  | none => inner
  | some step => .within whole step inner

/-- A visit that is left out finds a fit. -/
theorem Visit.check_of_skipped {visit : Visit} (skipped : visit.Skipped) (classes : Hierarchy)
    (whole : Value) : visit.check classes whole = .fits := by
  -- Only a part is ever left out, and then its hint is vacuous.
  obtain ⟨step, hint, value⟩ := visit
  obtain ⟨inside, vacuous⟩ := skipped
  cases step with
  | none => cases inside
  | some step => exact if_pos vacuous

/-- A visit that is not left out finds what a check of its pair finds. -/
theorem Visit.check_of_not_skipped {visit : Visit} (asked : ¬visit.Skipped)
    (classes : Hierarchy) (whole : Value) :
    visit.check classes whole =
      (visit.hint.check classes visit.value).map (visit.reason whole) := by
  obtain ⟨step, hint, value⟩ := visit
  cases step with
  | none =>
    -- Without a step the cause needs no rewording.
    show hint.check classes value = (hint.check classes value).map id
    cases hint.check classes value <;> rfl
  | some step =>
    have asks : ¬hint.isVacuous = true := fun vacuous => asked ⟨rfl, vacuous⟩
    exact if_neg asks

/-- A visit finds a fit exactly if it is left out or its pair fits. -/
theorem Visit.check_eq_fits {classes : Hierarchy} {whole : Value} {visit : Visit} :
    visit.check classes whole = .fits ↔
      visit.Skipped ∨ visit.hint.check classes visit.value = .fits := by
  -- A visit that is left out finds a fit, and any other finds what its pair does.
  by_cases skipped : visit.Skipped
  · simp [skipped, check_of_skipped skipped]
  · simp [skipped, check_of_not_skipped skipped]

/-- A visit finds a misfit exactly if it is not left out and its pair is a misfit. -/
theorem Visit.check_eq_misfit {classes : Hierarchy} {whole : Value} {visit : Visit}
    {reason : Cause} :
    visit.check classes whole = .misfit reason ↔
      ¬visit.Skipped ∧ ∃ inner, visit.hint.check classes visit.value = .misfit inner ∧
        visit.reason whole inner = reason := by
  -- A visit that is left out finds no misfit, and any other puts the reason of its pair in place.
  by_cases skipped : visit.Skipped
  · simp [skipped, check_of_skipped skipped]
  · simp [skipped, check_of_not_skipped skipped]

/-- The bases of a generic hint are searched for the first that the value does not fit. -/
theorem checkBases_eq_firstOf (classes : Hierarchy) (bases : List Hint) (value : Value) :
    checkBases classes bases value =
      Finding.firstOf (fun base => check classes base value) bases := by
  -- Both go on to the next base after a fit only.
  induction bases with
  | nil => rw [checkBases, Finding.firstOf_nil]
  | cons base rest ih => rw [checkBases, Finding.firstOf_cons, ih]

/-- Items and hints at the same places are searched for the first item that does not fit. -/
theorem checkEach_eq_firstOf (classes : Hierarchy) (whole : Value) (hints : List Hint)
    (items : List (Value × Nat)) :
    checkEach classes whole hints items =
      Finding.firstOf (Visit.check classes whole) ((hints.zip items).map
        fun (hint, part, position) => ⟨some (.index position), hint, part⟩) := by
  -- The two lists are used up together, so the search ends with the shorter one.
  induction hints generalizing items with
  | nil => simp [checkEach]
  | cons hint hints ih =>
    cases items with
    | nil => simp [checkEach]
    | cons item items =>
      rw [checkEach, List.zip_cons_cons, List.map_cons, Finding.firstOf_cons, ih]
      rfl

/-- A search under one hint may be left out as a whole where that hint is vacuous. -/
theorem firstOf_unlessVacuous {α : Type} (hint : Hint) (check : α → Finding Cause)
    (items : List α) :
    Finding.firstOf (fun item => Finding.unlessVacuous hint fun _ => check item) items =
      Finding.unlessVacuous hint fun _ => Finding.firstOf check items := by
  -- Leaving out every single check finds the same fit as leaving out all of them at once.
  cases vacuous : hint.isVacuous with
  | true => simp [Finding.unlessVacuous, vacuous, Finding.firstOf_eq_fits]
  | false => simp [Finding.unlessVacuous, vacuous]

/-- A hint is a union of some members or no union at all. -/
theorem union_or_not (hint : Hint) :
    (∃ members, hint = .union members) ∨ ∀ members, hint ≠ .union members :=
  -- The form of a hint is fixed.
  (Classical.em _).imp_right not_exists.mp

/-- A check under a tuple hint looks at the number of items and then at each item beside its hint.
-/
theorem check_tuple_eq_visits (classes : Hierarchy) (hints : List Hint) (value : Value) :
    (Hint.tuple hints).check classes value =
      ((Hint.tuple hints).checkItself classes value).andThen fun _ =>
        Finding.firstOf (Visit.check classes value) ((Hint.tuple hints).visits classes value) := by
  rw [check, checkItself]
  cases classes.checkInstance .tuple value with
  | fits =>
    simp only [Finding.andThen]
    -- Where no items can be seen there is nothing more to look at.
    cases visible : value.items? with
    | none => cases hints <;> simp [visits, visible]
    | some items =>
      by_cases same : hints.length = items.length
      · simp [visits, visible, same, checkEach_eq_firstOf]
      · -- The misfit by length settles the check, so the visits do not matter.
        by_cases empty : hints.isEmpty = true
        · simp [same, empty]
        · simp [same, empty]
  | misfit reason => rfl
  | blocked obstacle => rfl

/-- A check under any hint but a union looks at the value itself and then at the visited pairs. -/
theorem check_eq_visits {hint : Hint} (notUnion : ∀ members, hint ≠ .union members)
    (classes : Hierarchy) (value : Value) :
    hint.check classes value =
      (hint.checkItself classes value).andThen fun _ =>
        Finding.firstOf (Visit.check classes value) (hint.visits classes value) := by
  -- Every form lists its visits in the order in which its own check makes them.
  cases hint with
  | union members => exact absurd rfl (notUnion members)
  | collection form item =>
    -- Leaving out every visit of a vacuous hint is leaving out the search.
    rw [check, visits, Finding.firstOf_map]
    exact congrArg _ (funext fun _ => (firstOf_unlessVacuous item _ _).symm)
  | tuple hints => exact check_tuple_eq_visits classes hints value
  | tupleOf item =>
    rw [check, visits, Finding.firstOf_map]
    exact congrArg _ (funext fun _ => (firstOf_unlessVacuous item _ _).symm)
  | mapping form keyHint valueHint =>
    -- The two visits of an entry are searched together.
    rw [check, visits, Finding.firstOf_flatMap]
    simp only [Finding.firstOf_cons, Finding.firstOf_nil, Finding.andThen_fits]
    rfl
  | generic origin bases =>
    rw [check, visits, Finding.firstOf_map, checkBases_eq_firstOf]
    rfl
  | forwardRef name =>
    rw [check, checkItself, visits]
    -- The one visit is a check of the class, and the finding is that of the visit.
    cases classes.latest? name with
    | some ref =>
      simp [Finding.firstOf_cons, Visit.check, check]
    | none => rfl
  | _ => simp [check, checkItself, visits]

/-- Members of a union are alternatives, each checked unless it is vacuous. -/
theorem checkMembers_eq_anyOf (classes : Hierarchy) (members : List Hint) (value : Value) :
    checkMembers classes members value =
      Finding.anyOf (members.map fun hint =>
        Finding.unlessVacuous hint fun _ => check classes hint value) := by
  -- A misfit under the first member is kept while the others are tried.
  induction members with
  | nil => rw [checkMembers, List.map_nil, Finding.anyOf]
  | cons hint rest ih =>
    rw [checkMembers, List.map_cons, ih]
    cases Finding.unlessVacuous hint fun _ => check classes hint value <;> rfl

end Hint

end Misfit
