import Misfit.Proofs.Finding.Verdict

/-! Findings compared as far as they tell a verdict: one that keeps another, and two that do not
contradict each other. -/

namespace Misfit

/-- Every item on either side has a counterpart on the other, wherever that stands. -/
def Counterparts {α β : Type} (related : α → β → Prop) (items : List α) (others : List β) : Prop :=
  (∀ item ∈ items, ∃ other ∈ others, related item other) ∧
    ∀ other ∈ others, ∃ item ∈ items, related item other

namespace Counterparts

variable {α β γ δ : Type} {related : α → β → Prop} {items : List α} {others : List β}

/-- Items that are related one by one are each other's counterparts. -/
theorem of_forall₂ (each : List.Forall₂ related items others) :
    Counterparts related items others := by
  -- The first items are counterparts, and so are those of the two lists behind them.
  induction each with
  | nil => exact ⟨by simp, by simp⟩
  | @cons item other rest others head _ ih =>
    constructor
    · -- An item is the first one, or stands in the list behind it.
      intro one member
      rcases List.mem_cons.mp member with rfl | member
      · exact ⟨other, by simp, head⟩
      · obtain ⟨counterpart, listed, holds⟩ := ih.1 one member
        exact ⟨counterpart, by simp [listed], holds⟩
    · intro one member
      rcases List.mem_cons.mp member with rfl | member
      · exact ⟨item, by simp, head⟩
      · obtain ⟨counterpart, listed, holds⟩ := ih.2 one member
        exact ⟨counterpart, by simp [listed], holds⟩

/-- Counterparts stay what they are in another order. -/
theorem perm {reordered : List β} (matched : Counterparts related items others)
    (order : others.Perm reordered) : Counterparts related items reordered := by
  -- Which items there are does not depend on their order.
  constructor
  · intro item member
    obtain ⟨other, listed, holds⟩ := matched.1 item member
    exact ⟨other, order.mem_iff.mp listed, holds⟩
  · exact fun other member => matched.2 other (order.mem_iff.mpr member)

/-- Counterparts under one relation are counterparts under whatever follows from it. -/
theorem imp {related' : α → β → Prop} (matched : Counterparts related items others)
    (each : ∀ item ∈ items, ∀ other, related item other → related' item other) :
    Counterparts related' items others := by
  -- The same counterparts serve, on either side.
  constructor
  · intro item member
    obtain ⟨other, listed, holds⟩ := matched.1 item member
    exact ⟨other, listed, each item member other holds⟩
  · intro other member
    obtain ⟨item, listed, holds⟩ := matched.2 other member
    exact ⟨item, listed, each item listed other holds⟩

/-- What is made of counterparts is matched up in the same way. -/
theorem map {made : γ → δ → Prop} {make : α → γ} {make' : β → δ}
    (matched : Counterparts (fun item other => made (make item) (make' other)) items others) :
    Counterparts made (items.map make) (others.map make') := by
  -- The counterpart of what is made of an item is what is made of its counterpart.
  constructor
  · simp only [List.forall_mem_map]
    intro item member
    obtain ⟨other, listed, holds⟩ := matched.1 item member
    exact ⟨make' other, List.mem_map_of_mem listed, holds⟩
  · simp only [List.forall_mem_map]
    intro other member
    obtain ⟨item, listed, holds⟩ := matched.2 other member
    exact ⟨make item, List.mem_map_of_mem listed, holds⟩

end Counterparts

namespace Finding

variable {α β γ δ : Type} {found : Finding α} {other : Finding β}

/-- A finding is kept by those with its verdict; one that is blocked has none to keep. -/
def KeptBy (found : Finding α) (other : Finding β) : Prop :=
  (found = .fits → other = .fits) ∧
    ∀ reason, found = .misfit reason → ∃ reason', other = .misfit reason'

/-- A fit is kept by a fit. -/
theorem keptBy_fits : (fits : Finding α).KeptBy (fits : Finding β) := by
  -- There is no misfit here that would have to be kept.
  simp [KeptBy]

/-- A misfit is kept by any other. -/
theorem keptBy_misfit (reason : α) (reason' : β) : (misfit reason).KeptBy (misfit reason') := by
  -- There is no fit here that would have to be kept.
  simp [KeptBy]

/-- An obstacle is no verdict that could be lost. -/
theorem keptBy_of_blocked (obstacle : Obstacle) (other : Finding β) :
    (blocked obstacle : Finding α).KeptBy other := by
  -- It is neither a fit nor a misfit.
  simp [KeptBy]

/-- A finding keeps itself. -/
theorem KeptBy.refl (found : Finding α) : found.KeptBy found :=
  -- The fit is the same fit, and the misfit has the same reason.
  ⟨id, fun reason misfit => ⟨reason, misfit⟩⟩

/-- A verdict that is shared is kept. -/
theorem KeptBy.of_verdict_eq {ε : Type} {word : Obstacle → ε}
    (same : found.verdict word = other.verdict word) : found.KeptBy other := by
  -- A verdict tells fits from misfits, and that is all that has to be kept.
  constructor
  · rintro rfl
    exact verdict_eq_fits.mp same.symm
  · rintro reason rfl
    exact verdict_eq_misfit.mp same.symm

/-- Reasons in other words are kept as well. -/
theorem KeptBy.map (kept : found.KeptBy other) (reword : α → γ) (reword' : β → δ) :
    (found.map reword).KeptBy (other.map reword') := by
  -- Rewording makes no fit of a misfit, and no misfit of a fit.
  constructor
  · intro fits
    exact map_eq_fits.mpr (kept.1 (map_eq_fits.mp fits))
  · intro reason misfit
    obtain ⟨inner, misfit, _⟩ := map_eq_misfit.mp misfit
    obtain ⟨inner', misfit'⟩ := kept.2 inner misfit
    exact ⟨reword' inner', map_eq_misfit.mpr ⟨inner', misfit', rfl⟩⟩

/-- A finding and a further one are kept one after the other. -/
theorem KeptBy.andThen {next : Unit → Finding α} {next' : Unit → Finding β}
    (first : found.KeptBy other) (second : (next ()).KeptBy (next' ())) :
    (found.andThen next).KeptBy (other.andThen next') := by
  -- The further findings matter only after a fit, and then on both sides.
  constructor
  · -- A fit of both is a fit at each.
    intro fits
    obtain ⟨fits, fitsNext⟩ := andThen_eq_fits.mp fits
    exact andThen_eq_fits.mpr ⟨first.1 fits, second.1 fitsNext⟩
  · -- A misfit is one of the first check, or of the second after a fit.
    intro reason misfit
    rcases andThen_eq_misfit.mp misfit with misfit | ⟨fits, misfit⟩
    · obtain ⟨reason', misfit'⟩ := first.2 reason misfit
      exact ⟨reason', andThen_eq_misfit.mpr (.inl misfit')⟩
    · obtain ⟨reason', misfit'⟩ := second.2 reason misfit
      exact ⟨reason', andThen_eq_misfit.mpr (.inr ⟨first.1 fits, misfit'⟩)⟩

/-- Checks that are left out together are kept as they are where they are made. -/
theorem KeptBy.unlessVacuous {hint other : Hint} {check : Unit → Finding α}
    {check' : Unit → Finding β} (kept : (check ()).KeptBy (check' ()))
    (together : hint.isVacuous = other.isVacuous) :
    (Finding.unlessVacuous hint check).KeptBy (Finding.unlessVacuous other check') := by
  -- Where both are left out there are two fits, and elsewhere both checks are made.
  rw [Finding.unlessVacuous, Finding.unlessVacuous, together]
  split
  · exact keptBy_fits
  · exact kept

/-- A search is kept by one that keeps what is found for each item. -/
theorem keptBy_firstOf {check : γ → Finding α} {check' : δ → Finding β} {items : List γ}
    {items' : List δ}
    (each : List.Forall₂ (fun item item' => (check item).KeptBy (check' item')) items items') :
    (firstOf check items).KeptBy (firstOf check' items') := by
  -- The searches go through the two lists in step.
  induction each with
  | nil => exact keptBy_fits
  | cons head _ ih =>
    rw [firstOf_cons, firstOf_cons]
    exact head.andThen ih

/-- Alternatives are kept together where they are kept one by one. -/
theorem keptBy_anyOf {found : List (Finding α)} {found' : List (Finding β)}
    (each : List.Forall₂ KeptBy found found') : (anyOf found).KeptBy (anyOf found') := by
  -- What the first alternative settles stays settled, and a misfit leaves it to the others.
  induction each with
  | nil => exact keptBy_misfit [] []
  | @cons first first' rest rest' head _ ih =>
    cases first with
    | fits =>
      rw [head.1 rfl]
      exact keptBy_fits
    | misfit reason =>
      obtain ⟨reason', misfit⟩ := head.2 reason rfl
      -- On both sides the others decide, and only their reasons are added to.
      rw [misfit, anyOf, anyOf]
      exact ih.map _ _
    | blocked obstacle => exact keptBy_of_blocked obstacle _

/-- Two findings are compatible unless one is a fit and the other a misfit. -/
def Compatible (found : Finding α) (other : Finding β) : Prop :=
  (found = .fits → ∀ reason, other ≠ .misfit reason) ∧
    (other = .fits → ∀ reason, found ≠ .misfit reason)

/-- Two fits are compatible. -/
theorem Compatible.of_fits : (fits : Finding α).Compatible (fits : Finding β) := by
  -- Neither of them is a misfit.
  simp [Compatible]

/-- Findings with one verdict are compatible. -/
theorem Compatible.of_verdict_eq {ε : Type} {word : Obstacle → ε}
    (same : found.verdict word = other.verdict word) : found.Compatible other := by
  -- A fit on one side is a fit on the other, and so there is no misfit on either.
  constructor
  · rintro rfl reason rfl
    cases same
  · rintro rfl reason rfl
    cases same

/-- Reasons in other words stay compatible. -/
theorem Compatible.map (compatible : found.Compatible other) (reword : α → γ) (reword' : β → δ) :
    (found.map reword).Compatible (other.map reword') := by
  -- Rewording makes neither fits nor misfits.
  constructor
  · intro fits reason misfit
    obtain ⟨inner, misfit, _⟩ := map_eq_misfit.mp misfit
    exact compatible.1 (map_eq_fits.mp fits) inner misfit
  · intro fits reason misfit
    obtain ⟨inner, misfit, _⟩ := map_eq_misfit.mp misfit
    exact compatible.2 (map_eq_fits.mp fits) inner misfit

/-- Findings stay compatible when further compatible ones follow them. -/
theorem Compatible.andThen {next : Unit → Finding α} {next' : Unit → Finding β}
    (first : found.Compatible other) (second : (next ()).Compatible (next' ())) :
    (found.andThen next).Compatible (other.andThen next') := by
  -- A fit so far is a fit at first and of what follows, so a misfit at neither.
  constructor
  · intro fits reason misfit
    obtain ⟨fits, fitsNext⟩ := andThen_eq_fits.mp fits
    -- A misfit on the other side would be one of a check that fits on this side.
    rcases andThen_eq_misfit.mp misfit with misfit | ⟨_, misfit⟩
    · exact first.1 fits reason misfit
    · exact second.1 fitsNext reason misfit
  · intro fits reason misfit
    obtain ⟨fits, fitsNext⟩ := andThen_eq_fits.mp fits
    rcases andThen_eq_misfit.mp misfit with misfit | ⟨_, misfit⟩
    · exact first.2 fits reason misfit
    · exact second.2 fitsNext reason misfit

/-- Checks that are left out together are compatible as they are where they are made. -/
theorem Compatible.unlessVacuous {hint other : Hint} {check : Unit → Finding α}
    {check' : Unit → Finding β} (compatible : (check ()).Compatible (check' ()))
    (together : hint.isVacuous = other.isVacuous) :
    (Finding.unlessVacuous hint check).Compatible (Finding.unlessVacuous other check') := by
  -- Where both are left out there are two fits, and elsewhere both checks are made.
  rw [Finding.unlessVacuous, Finding.unlessVacuous, together]
  split
  · exact .of_fits
  · exact compatible

/-- Searches through counterparts are compatible where what is found for these is. -/
theorem compatible_firstOf {check : γ → Finding α} {check' : δ → Finding β} {items : List γ}
    {items' : List δ}
    (matched : Counterparts (fun item item' => (check item).Compatible (check' item'))
      items items') :
    (firstOf check items).Compatible (firstOf check' items') := by
  -- A misfit is due to one item, whose counterpart keeps the other search from ending with a fit.
  constructor
  · intro fits reason misfit
    obtain ⟨before, item', after, rfl, _, found⟩ := firstOf_eq_misfit.mp misfit
    obtain ⟨item, member, compatible⟩ := matched.2 item' (by simp)
    exact compatible.1 (firstOf_eq_fits.mp fits item member) reason found
  · intro fits reason misfit
    obtain ⟨before, item, after, rfl, _, found⟩ := firstOf_eq_misfit.mp misfit
    obtain ⟨item', member, compatible⟩ := matched.1 item (by simp)
    exact compatible.2 (firstOf_eq_fits.mp fits item' member) reason found

/-- Alternatives are compatible where they have compatible counterparts. -/
theorem compatible_anyOf {found : List (Finding α)} {found' : List (Finding β)}
    (matched : Counterparts Compatible found found') :
    (anyOf found).Compatible (anyOf found') := by
  -- A fit is due to one alternative, whose counterpart cannot be a misfit as all would have to be.
  constructor
  · intro fits reasons misfit
    obtain ⟨other, member, compatible⟩ := matched.1 _ (fits_mem_of_anyOf fits)
    -- All alternatives on the other side are misfits, the counterpart of the fit among them.
    rw [anyOf_eq_misfit.mp misfit] at member
    obtain ⟨reason, _, rfl⟩ := List.mem_map.mp member
    exact compatible.1 rfl reason rfl
  · intro fits reasons misfit
    obtain ⟨other, member, compatible⟩ := matched.2 _ (fits_mem_of_anyOf fits)
    rw [anyOf_eq_misfit.mp misfit] at member
    obtain ⟨reason, _, rfl⟩ := List.mem_map.mp member
    exact compatible.2 rfl reason rfl

end Finding

end Misfit
