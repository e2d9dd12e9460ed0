import Misfit.Failure
import Misfit.Proofs.Cause.Members
import Misfit.Proofs.Finding.Tells
import Misfit.Proofs.Hint.Visits

/-! What a check tells stays with the value and the hint that it started from, and reads alike
wherever the texts of these do. -/

namespace Misfit

/-- The values and hints that something may show. -/
structure Scope where
  values : Value → Prop
  hints : Hint → Prop

/-- What an expectation shows is in scope. -/
def Expectation.ShowsOnly (scope : Scope) : Expectation → Prop
  | .instanceOf refs => ∀ ref ∈ refs, scope.hints (.instanceOf ref)
  | .oneOf values => ∀ value ∈ values, scope.values value
  | .subclassOf ref => scope.hints (.instanceOf ref)
  | .classObject | .emptyTuple | .length _ _ => True

/-- The key that a step shows, if it shows one, is in scope. -/
def Step.ShowsOnly (scope : Scope) : Step → Prop
  | .valueAt stored => scope.values stored
  | .index _ | .item | .key => True

/-- The hint that an obstacle shows, if it shows one, is in scope. -/
def Obstacle.ShowsOnly (scope : Scope) : Obstacle → Prop
  | .unknownForm hint | .noExplainer hint _ => scope.hints hint
  | .unresolved _ => True

/-- All that a cause shows is in scope. -/
inductive Cause.ShowsOnly (scope : Scope) : Cause → Prop where
  | mismatch {value : Value} {expected : Expectation} (shown : scope.values value)
      (asked : expected.ShowsOnly scope) : ShowsOnly scope (.mismatch value expected)
  | within {value : Value} {step : Step} {inner : Cause} (shown : scope.values value)
      (taken : step.ShowsOnly scope) (deeper : ShowsOnly scope inner) :
      ShowsOnly scope (.within value step inner)
  | alternatives {value : Value} {members : List Hint} {causes : List Cause}
      (shown : scope.values value) (asked : scope.hints (.union members))
      (each : ∀ cause ∈ causes, ShowsOnly scope cause) :
      ShowsOnly scope (.alternatives value members causes)

namespace Scope

/-- A scope is closed if it has, with each value, what can be seen inside, and with each hint its
parts, its named values, and the classes that it stands or asks for. -/
structure Closed (scope : Scope) (classes : Hierarchy) : Prop where
  item : ∀ {value}, scope.values value → ∀ part ∈ value.items?.getD [], scope.values part
  entry : ∀ {value}, scope.values value →
    ∀ entry ∈ value.pairs?.getD [], scope.values entry.1 ∧ scope.values entry.2
  part : ∀ {hint}, scope.hints hint → ∀ part ∈ hint.parts, scope.hints part
  origin : ∀ {hint ref}, scope.hints hint → hint.origin? = some ref →
    scope.hints (.instanceOf ref)
  subclass : ∀ {ref}, scope.hints (.subclassOf ref) → scope.hints (.instanceOf ref)
  latest : ∀ {name ref}, scope.hints (.forwardRef name) → classes.latest? name = some ref →
    scope.hints (.instanceOf ref)
  literal : ∀ {named}, scope.hints (.literal named) → ∀ value ∈ named, scope.values value

namespace Closed

variable {scope : Scope} {classes : Hierarchy}

/-- What a check visits is in scope, and so is the key by which it gets there. -/
theorem visit (closed : scope.Closed classes) {hint : Hint} {value : Value}
    (asked : scope.hints hint) (shown : scope.values value) {visit : Hint.Visit}
    (member : visit ∈ hint.visits classes value) :
    scope.hints visit.hint ∧ scope.values visit.value ∧
      ∀ step, visit.step = some step → step.ShowsOnly scope := by
  -- The hint, the value and the step of a visit are in scope for reasons of their own.
  refine ⟨?_, ?_, ?_⟩
  · -- A name leads to its class, and every other hint to its parts.
    by_cases named : ∃ name, hint = .forwardRef name
    · obtain ⟨name, rfl⟩ := named
      obtain ⟨ref, found, rfl⟩ := Hint.mem_visits_forwardRef.mp member
      exact closed.latest asked found
    · exact closed.part asked _ (Hint.part_of_mem_visits (not_exists.mp named) member)
  · exact Hint.property_of_mem_visits shown (closed.item shown) (closed.entry shown) member
  · intro step taken
    -- Of all steps only one shows a value, and that is a key of the value visited.
    cases step with
    | valueAt key =>
      obtain ⟨entry, listed, rfl⟩ := Hint.key_of_mem_visits member taken
      exact (closed.entry shown entry listed).1
    | _ => trivial

/-- A check of a class shows the value and the class. -/
theorem tells_checkInstance {ref : ClassRef} {value : Value} (shown : scope.values value)
    (asked : scope.hints (.instanceOf ref)) :
    (classes.checkInstance ref value).Tells (Cause.ShowsOnly scope)
      (Obstacle.ShowsOnly scope) := by
  -- A fit tells nothing, and a mismatch shows what was asked.
  unfold Hierarchy.checkInstance
  split
  · trivial
  · exact .mismatch shown (by simpa [Expectation.ShowsOnly] using asked)

/-- What a check finds at the value itself is in scope. -/
theorem tells_checkItself (closed : scope.Closed classes) {hint : Hint} {value : Value}
    (asked : scope.hints hint) (shown : scope.values value) :
    (hint.checkItself classes value).Tells (Cause.ShowsOnly scope)
      (Obstacle.ShowsOnly scope) := by
  -- Whatever is told shows the value, what the hint asks for, or nothing of either.
  cases hint with
  | any | union members => trivial
  | instanceOf ref | collection form item | tupleOf item | mapping form key stored
  | generic origin bases => exact tells_checkInstance shown (closed.origin asked rfl)
  | tuple hints =>
    rw [Hint.checkItself]
    apply (tells_checkInstance shown (closed.origin asked rfl)).andThen
    -- A mismatch in length shows numbers only.
    split
    · trivial
    · split
      · trivial
      · split
        · exact .mismatch shown trivial
        · exact .mismatch shown trivial
  | subclassOf ref =>
    -- Of both mismatches only one shows a class, and that is the class of the hint.
    simp only [Hint.checkItself, Hierarchy.checkSubclass]
    split
    · split
      · trivial
      · exact .mismatch shown (closed.subclass asked)
    · exact .mismatch shown trivial
  | literal named =>
    -- A mismatch shows the named values.
    simp only [Hint.checkItself, Value.checkLiteral]
    split
    · trivial
    · exact .mismatch shown (closed.literal asked)
  | forwardRef name =>
    simp only [Hint.checkItself]
    split <;> trivial
  | callable parameters result | typeVar name | foreign text => exact asked

/-- All that a check tells is in scope. -/
theorem tells_check (closed : scope.Closed classes) {hint : Hint} {value : Value}
    (asked : scope.hints hint) (shown : scope.values value) :
    (hint.check classes value).Tells (Cause.ShowsOnly scope) (Obstacle.ShowsOnly scope) := by
  -- What is told is told of the value itself, of one visit, or of all members of a union.
  induction hint, value using Hint.visits_induction classes with
  | step hint value visited members =>
    rcases hint.union_or_not with ⟨alternatives, rfl⟩ | notUnion
    · rw [Hint.check, Hint.checkMembers_eq_anyOf]
      have each : ∀ member ∈ alternatives,
          (Finding.unlessVacuous member fun _ => member.check classes value).Tells
            (Cause.ShowsOnly scope) (Obstacle.ShowsOnly scope) := by
        intro member listed
        have part := closed.part asked member listed
        exact .unlessVacuous (members alternatives rfl member listed part shown)
      apply (Finding.tells_anyOf each).map
      intro causes holds
      -- A cause below that of the union is one of a member, or names the plain classes together.
      obtain ⟨listed, same, origins⟩ := Cause.mem_ofMembers value alternatives causes
      rw [same]
      refine .alternatives shown asked ?_
      intro cause member
      rcases origins cause member with given | ⟨refs, rfl, named⟩
      · exact holds cause given
      · exact .mismatch shown fun ref member => closed.part asked _ (named ref member)
    · rw [Hint.check_eq_visits notUnion]
      apply (closed.tells_checkItself asked shown).andThen
      apply Finding.tells_firstOf
      intro visit member
      -- What a visit tells is put behind the value and the step, both of which are in scope.
      obtain ⟨asked', shown', taken⟩ := closed.visit asked shown member
      have told := visited visit member asked' shown'
      unfold Hint.Visit.check
      split
      · exact told
      · next step found =>
        exact .unlessVacuous (told.map fun _ inner => .within shown (taken step found) inner)

end Closed

/-- Two hierarchies and two styles that word all of a scope alike. -/
structure WordedAlike (scope : Scope) (classes classes' : Hierarchy) (style style' : Style) :
    Prop where
  className : ∀ {value}, scope.values value →
    classes.nameOf value.classRef = classes'.nameOf value.classRef
  brief : ∀ {value}, scope.values value →
    value.brief classes style.excerptLimit = value.brief classes' style'.excerptLimit
  hint : ∀ {hint}, scope.hints hint → hint.text classes = hint.text classes'
  bulletIndent : style.bulletIndent = style'.bulletIndent

namespace WordedAlike

variable {scope : Scope} {classes classes' : Hierarchy} {style style' : Style}

/-- Values in scope are introduced alike. -/
theorem describe (alike : scope.WordedAlike classes classes' style style') {value : Value}
    (shown : scope.values value) :
    value.describe classes style.excerptLimit = value.describe classes' style'.excerptLimit := by
  -- An introduction shows the name of a class and a brief text.
  have class_ := alike.className shown
  have brief := alike.brief shown
  cases value with
  | none => exact brief
  | _ => simp only [Value.describe, class_, brief]

/-- Expectations that stay in scope are told alike. -/
theorem expectation (alike : scope.WordedAlike classes classes' style style')
    {expected : Expectation} (only : expected.ShowsOnly scope) :
    expected.text classes style = expected.text classes' style' := by
  -- An expectation shows classes or values, one by one, or numbers and fixed words.
  cases expected with
  | instanceOf refs =>
    have names : refs.map classes.nameOf = refs.map classes'.nameOf :=
      List.map_congr_left fun ref member => alike.hint (only ref member)
    exact congrArg ("not " ++ disjunction ·) names
  | oneOf values =>
    have briefs : values.map (Value.brief classes style.excerptLimit) =
        values.map (Value.brief classes' style'.excerptLimit) :=
      List.map_congr_left fun value member => alike.brief (only value member)
    exact congrArg ("not " ++ disjunction ·) briefs
  | subclassOf ref => exact congrArg ("not subclass of " ++ ·) (alike.hint only)
  | classObject | emptyTuple | length actual expected => rfl

/-- Steps that stay in scope are told alike. -/
theorem step (alike : scope.WordedAlike classes classes' style style') {step : Step}
    (only : step.ShowsOnly scope) : step.text classes style = step.text classes' style' := by
  -- Only a key is shown by a step.
  cases step with
  | valueAt key => rw [Step.text, Step.text, alike.brief only]
  | _ => rfl

/-- Causes that stay in scope are told alike, at every indent. -/
theorem cause (alike : scope.WordedAlike classes classes' style style') {cause : Cause}
    (only : cause.ShowsOnly scope) (indent : String) :
    cause.text classes style indent = cause.text classes' style' indent := by
  -- By induction on the cause: what it shows is in scope, and inner causes are told alike.
  induction only generalizing indent with
  | mismatch shown asked =>
    rw [Cause.text, Cause.text, alike.describe shown, alike.expectation asked]
  | within shown taken _ ih =>
    rw [Cause.text, Cause.text, alike.describe shown, alike.step taken, ih]
  | @alternatives value members causes shown asked _ ih =>
    -- The inner causes are told one level deeper, which is as deep under both styles.
    have texts : Cause.texts classes style (indent ++ style.bulletIndent) causes =
        Cause.texts classes' style' (indent ++ style'.bulletIndent) causes := by
      rw [Cause.texts_eq_map, Cause.texts_eq_map, ← alike.bulletIndent]
      exact List.map_congr_left fun cause member => ih cause member _
    rw [Cause.text, Cause.text, texts, alike.describe shown, alike.hint asked,
      alike.bulletIndent]

/-- Obstacles that stay in scope lead to the same failure. -/
theorem failure (alike : scope.WordedAlike classes classes' style style') {obstacle : Obstacle}
    (only : obstacle.ShowsOnly scope) (label : String) :
    obstacle.failure classes label = obstacle.failure classes' label := by
  -- An unresolved name is told as it is, and all other obstacles show a hint.
  cases obstacle with
  | unknownForm hint | noExplainer hint category =>
    rw [Obstacle.failure, Obstacle.failure, alike.hint only]
  | unresolved name => rfl

end WordedAlike

end Scope

end Misfit
