import Mathlib.Data.List.Forall2
import Misfit.Failure
import Misfit.Proofs.Duplicates
import Misfit.Proofs.Finding

/-! What a finding says apart from its reasons: a fit, a misfit, or the obstacle in the way. -/

namespace Misfit

/-- What a failure is about, apart from the label and from the texts of values and hints. -/
inductive Failure.Kind where
  | unknownForm
  | noExplainer (category : Category)
  | unresolvedName (name : String)
  | alreadyFits
deriving DecidableEq

/-- The kind of a failure. -/
def Failure.kind : Failure → Kind
  | .unknownForm _ _ => .unknownForm
  | .noExplainer _ _ category => .noExplainer category
  | .unresolvedName _ name => .unresolvedName name
  | .alreadyFits _ _ _ => .alreadyFits

/-- The kind of failure that an obstacle leads to. -/
def Obstacle.kind : Obstacle → Failure.Kind
  | .unknownForm _ => .unknownForm
  | .noExplainer _ category => .noExplainer category
  | .unresolved name => .unresolvedName name

/-- The failure of an obstacle is of the obstacle's kind, and carries the caller's label. -/
theorem Obstacle.kind_failure (classes : Hierarchy) (label : String) (obstacle : Obstacle) :
    (obstacle.failure classes label).kind = obstacle.kind ∧
      (obstacle.failure classes label).label = label := by
  -- Every failure is built with the label and kind of what stands in the way.
  cases obstacle <;> exact ⟨rfl, rfl⟩

namespace Finding

variable {α β ε : Type} {word : Obstacle → ε}

/-- Whether a finding is a fit, or what is told of the obstacle that keeps this from being known. -/
def verdict (word : Obstacle → ε) : Finding α → Except ε Bool
  | .fits => .ok true
  | .misfit _ => .ok false
  | .blocked obstacle => .error (word obstacle)

/-- Only a fit has the verdict of one. -/
@[simp] theorem verdict_eq_fits {found : Finding α} :
    found.verdict word = .ok true ↔ found = .fits := by
  -- The verdict tells the three findings apart.
  cases found <;> simp [verdict]

/-- Only a misfit has the verdict of one. -/
@[simp] theorem verdict_eq_misfit {found : Finding α} :
    found.verdict word = .ok false ↔ ∃ reason, found = .misfit reason := by
  -- The verdict drops the reason and keeps that there was one.
  cases found <;> simp [verdict]

/-- Only a blocked finding has the verdict of one, with what is told of its obstacle. -/
@[simp] theorem verdict_eq_blocked {found : Finding α} {told : ε} :
    found.verdict word = .error told ↔
      ∃ obstacle, found = .blocked obstacle ∧ word obstacle = told := by
  -- The verdict shows of an obstacle what the words make of it.
  cases found <;> simp [verdict]

/-- A reason in other words changes no verdict. -/
@[simp] theorem verdict_map (found : Finding α) (reword : α → β) :
    (found.map reword).verdict word = found.verdict word := by
  -- Reasons are forgotten in a verdict.
  cases found <;> rfl

/-- Two checks with the verdicts of two others have their verdict one after the other. -/
theorem verdict_andThen_congr {found : Finding α} {found' : Finding β} {next : Unit → Finding α}
    {next' : Unit → Finding β} (first : found.verdict word = found'.verdict word)
    (second : (next ()).verdict word = (next' ()).verdict word) :
    (found.andThen next).verdict word = (found'.andThen next').verdict word := by
  -- The second checks decide only where both of the first ones fit.
  cases found with
  | fits =>
    have fits := verdict_eq_fits.mp first.symm
    rw [fits]
    exact second
  | misfit reason =>
    -- Both sides end with a misfit, for reasons that may differ.
    obtain ⟨reason', misfit⟩ := verdict_eq_misfit.mp first.symm
    rw [misfit]
    rfl
  | blocked obstacle =>
    -- Both sides end with an obstacle, and the same is told of it.
    obtain ⟨obstacle', blocked, told⟩ := verdict_eq_blocked.mp first.symm
    rw [blocked]
    exact congrArg Except.error told.symm

/-- Checks with one verdict, left out together, have one verdict. -/
theorem verdict_unlessVacuous_congr {hint other : Hint} {found : Unit → Finding α}
    {found' : Unit → Finding β} (together : hint.isVacuous = other.isVacuous)
    (same : (found ()).verdict word = (found' ()).verdict word) :
    (unlessVacuous hint found).verdict word = (unlessVacuous other found').verdict word := by
  -- Where both are left out there are two fits, and elsewhere both checks are made.
  rw [unlessVacuous, unlessVacuous, together]
  split
  · rfl
  · exact same

/-- Two searches through items with the same verdicts one by one have the same verdict. -/
theorem verdict_firstOf_congr {γ δ : Type} {check : γ → Finding α} {check' : δ → Finding β}
    {items : List γ} {items' : List δ}
    (same : List.Forall₂ (fun item item' => (check item).verdict word = (check' item').verdict word)
      items items') :
    (firstOf check items).verdict word = (firstOf check' items').verdict word := by
  -- The searches go through the two lists in step.
  induction same with
  | nil => rfl
  | cons head _ ih =>
    rw [firstOf_cons, firstOf_cons]
    exact verdict_andThen_congr head ih

/-- Alternatives after a first one matter only where that is a misfit. -/
theorem verdict_anyOf_cons_congr {first : Finding α} {first' : Finding β} {rest : List (Finding α)}
    {rest' : List (Finding β)} (head : first.verdict word = first'.verdict word)
    (tail : (∃ reason, first = .misfit reason) →
      (anyOf rest).verdict word = (anyOf rest').verdict word) :
    (anyOf (first :: rest)).verdict word = (anyOf (first' :: rest')).verdict word := by
  -- A fit or an obstacle ends the search on both sides at once.
  cases first with
  | fits =>
    rw [verdict_eq_fits.mp head.symm]
    rfl
  | misfit reason =>
    -- After a misfit the search goes on, and only its reason is put before the others.
    obtain ⟨reason', misfit⟩ := verdict_eq_misfit.mp head.symm
    rw [misfit, anyOf, anyOf, verdict_map, verdict_map]
    exact tail ⟨reason, rfl⟩
  | blocked obstacle =>
    obtain ⟨obstacle', blocked, told⟩ := verdict_eq_blocked.mp head.symm
    rw [blocked]
    exact congrArg Except.error told.symm

/-- Alternatives with the same verdicts one by one have the same verdict together. -/
theorem verdict_anyOf_congr {found : List (Finding α)} {found' : List (Finding β)}
    (same : List.Forall₂ (fun one other => one.verdict word = other.verdict word) found found') :
    (anyOf found).verdict word = (anyOf found').verdict word := by
  -- The alternatives are tried in step.
  induction same with
  | nil => rfl
  | cons head _ ih => exact verdict_anyOf_cons_congr head fun _ => ih

/-- A lone alternative decides. -/
theorem verdict_anyOf_singleton (found : Finding α) :
    (anyOf [found]).verdict word = found.verdict word := by
  -- There is nothing after it, and its reason is listed alone.
  cases found <;> rfl

/-- Alternatives can be tried in two groups, the second after the first. -/
theorem verdict_anyOf_append (found more : List (Finding α)) :
    (anyOf (found ++ more)).verdict word =
      (anyOf [anyOf found, anyOf more]).verdict word := by
  -- What the first alternative settles is settled for both groups.
  induction found with
  | nil =>
    rw [List.nil_append, anyOf, anyOf, verdict_map, verdict_anyOf_singleton]
  | cons first rest ih =>
    cases first with
    | fits => rfl
    | misfit reason =>
      -- Behind a misfit the rest of the group decides together with the other one.
      rw [List.cons_append, anyOf, verdict_map, ih, anyOf]
      exact verdict_anyOf_cons_congr (verdict_map _ _).symm fun _ => rfl
    | blocked obstacle => rfl

/-- Alternatives can be tried in groups, one for each of some items. -/
theorem verdict_anyOf_flatMap {γ : Type} (several : γ → List (Finding α)) (items : List γ) :
    (anyOf (items.flatMap several)).verdict word =
      (anyOf (items.map fun item => anyOf (several item))).verdict word := by
  -- The group of the first item is tried before those of all others.
  induction items with
  | nil => rfl
  | cons item rest ih =>
    rw [List.flatMap_cons, verdict_anyOf_append, List.map_cons]
    apply verdict_anyOf_cons_congr rfl
    intro _
    rw [verdict_anyOf_singleton, ih]

/-- Alternatives that are misfits can be left out. -/
theorem verdict_anyOf_filter {γ : Type} {check : γ → Finding α} {kept : γ → Bool} {items : List γ}
    (misfits : ∀ item ∈ items, kept item = false → ∃ reason, check item = .misfit reason) :
    (anyOf ((items.filter kept).map check)).verdict word =
      (anyOf (items.map check)).verdict word := by
  -- A misfit passes the decision on, as if it had not been there.
  induction items with
  | nil => rfl
  | cons item rest ih =>
    have later := ih fun other member => misfits other (by simp [member])
    cases keep : kept item with
    | true =>
      rw [List.filter_cons_of_pos keep, List.map_cons, List.map_cons]
      exact verdict_anyOf_cons_congr rfl fun _ => later
    | false =>
      -- The item that is left out is a misfit, and leaves the decision to the others.
      obtain ⟨reason, misfit⟩ := misfits item (by simp) keep
      rw [List.filter_cons_of_neg (by simp [keep]), List.map_cons, misfit, anyOf, verdict_map]
      exact later

/-- Of equal alternatives only the first matters, if a misfit makes misfits of its equals. -/
theorem verdict_anyOf_eraseDups {γ : Type} [BEq γ] {check : γ → Finding α}
    (congr : ∀ later earlier, (later == earlier) = true →
      (∃ reason, check earlier = .misfit reason) → ∃ reason, check later = .misfit reason)
    (items : List γ) :
    (anyOf (items.eraseDups.map check)).verdict word = (anyOf (items.map check)).verdict word := by
  -- The equals of the first alternative come into play only if it is a misfit, and so are they.
  induction items using eraseDups_induction with
  | nil => rfl
  | cons first rest ih =>
    rw [List.eraseDups_cons, List.map_cons, List.map_cons]
    apply verdict_anyOf_cons_congr rfl
    -- Those that are dropped from the rest are equal to the first one, which is a misfit here.
    intro misfit
    rw [ih]
    apply verdict_anyOf_filter
    intro other _ dropped
    exact congr other first (by simpa using dropped) misfit

end Finding

end Misfit
