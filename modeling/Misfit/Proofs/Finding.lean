import Misfit.Finding

/-! Findings that settle a question, and what a search for the first misfit finds. -/

namespace Misfit

namespace Finding

variable {α β : Type}

/-- A check that adds nothing leaves the finding as it is. -/
@[simp] theorem andThen_fits (found : Finding α) : (found.andThen fun _ => .fits) = found := by
  -- A finding stands as it is, or is a fit and gives way to another one.
  cases found <;> rfl

/-- A check that follows a fit decides alone. -/
@[simp] theorem fits_andThen (next : Unit → Finding α) :
    (fits : Finding α).andThen next = next () :=
  -- The first check is done with.
  rfl

/-- A check that follows anything but a fit is not made. -/
theorem andThen_of_ne_fits {found : Finding α} (stops : found ≠ .fits)
    (next : Unit → Finding α) : found.andThen next = found := by
  -- Only a fit gives way to what comes next.
  cases found with
  | fits => exact absurd rfl stops
  | misfit reason => rfl
  | blocked obstacle => rfl

/-- Two checks find a fit exactly if both do. -/
theorem andThen_eq_fits {found : Finding α} {next : Unit → Finding α} :
    found.andThen next = .fits ↔ found = .fits ∧ next () = .fits := by
  -- A misfit or an obstacle at the first check is the finding of both.
  cases found <;> simp [andThen]

/-- Two checks find a misfit exactly if the first does, or the second after a fit. -/
theorem andThen_eq_misfit {found : Finding α} {next : Unit → Finding α} {reason : α} :
    found.andThen next = .misfit reason ↔
      found = .misfit reason ∨ found = .fits ∧ next () = .misfit reason := by
  -- The second check is made only after a fit, so these are the two ways.
  cases found <;> simp [andThen]

/-- Rewording makes and spoils no fit. -/
@[simp] theorem map_eq_fits {found : Finding α} {reword : α → β} :
    found.map reword = .fits ↔ found = .fits := by
  -- Only misfits have a reason that could be put into other words.
  cases found <;> simp [map]

/-- A reworded misfit was one for the reason before the rewording. -/
@[simp] theorem map_eq_misfit {found : Finding α} {reword : α → β} {reason : β} :
    found.map reword = .misfit reason ↔
      ∃ inner, found = .misfit inner ∧ reword inner = reason := by
  -- The words change and the outcome does not.
  cases found <;> simp [map]

/-- Rewording leaves obstacles as they are. -/
@[simp] theorem map_eq_blocked {found : Finding α} {reword : α → β} {obstacle : Obstacle} :
    found.map reword = .blocked obstacle ↔ found = .blocked obstacle := by
  -- An obstacle holds no reason.
  cases found <;> simp [map]

/-- Nothing is at fault where nothing is searched. -/
@[simp] theorem firstOf_nil (check : β → Finding α) : firstOf check [] = .fits :=
  -- The search ends before it starts.
  rfl

/-- A search makes its checks one after the other. -/
theorem firstOf_cons (check : β → Finding α) (item : β) (rest : List β) :
    firstOf check (item :: rest) = (check item).andThen fun _ => firstOf check rest := by
  -- Both sides go on after a fit and stop at anything else.
  rw [firstOf]
  cases check item <;> rfl

/-- A search through two lists goes on to the second where all of the first fits. -/
theorem firstOf_append (check : β → Finding α) (items more : List β) :
    firstOf check (items ++ more) =
      (firstOf check items).andThen fun _ => firstOf check more := by
  -- What the first item settles is settled for both lists, and a fit leaves a shorter first list.
  induction items with
  | nil => rfl
  | cons item rest ih =>
    rw [List.cons_append, firstOf_cons, firstOf_cons, ih]
    cases check item <;> rfl

/-- Searches that find the same for every item find the same. -/
theorem firstOf_congr {check other : β → Finding α} {items : List β}
    (each : ∀ item ∈ items, check item = other item) :
    firstOf check items = firstOf other items := by
  -- Item by item, the same is found, and the search goes on or ends in the same way.
  induction items with
  | nil => rfl
  | cons item rest ih =>
    have tail := ih fun later member => each later (by simp [member])
    rw [firstOf_cons, firstOf_cons, each item (by simp), tail]

/-- A search through the images of items checks each image in its item's place. -/
theorem firstOf_map {γ : Type} (check : β → Finding α) (image : γ → β) (items : List γ) :
    firstOf check (items.map image) = firstOf (fun item => check (image item)) items := by
  -- Each turn of the two searches makes the same check.
  induction items with
  | nil => rfl
  | cons item rest ih => rw [List.map_cons, firstOf_cons, firstOf_cons, ih]

/-- A search through several items for each of some others searches for each of those in turn. -/
theorem firstOf_flatMap {γ : Type} (check : β → Finding α) (several : γ → List β)
    (items : List γ) :
    firstOf check (items.flatMap several) =
      firstOf (fun item => firstOf check (several item)) items := by
  -- The items that the first one stands for are searched before those of all others.
  induction items with
  | nil => rfl
  | cons item rest ih => rw [List.flatMap_cons, firstOf_append, firstOf_cons, ih]

/-- A search ends with a fit exactly if every item fits. -/
theorem firstOf_eq_fits {check : β → Finding α} {items : List β} :
    firstOf check items = .fits ↔ ∀ item ∈ items, check item = .fits := by
  -- Anything else than a fit stops the search before the end of the list.
  induction items with
  | nil => simp
  | cons item rest ih =>
    rw [firstOf_cons, List.forall_mem_cons, ← ih]
    cases check item <;> simp [andThen]

/-- A finding settles a question when it is a fit if the answer is yes and a misfit if it is no. -/
def Decides (found : Finding α) (question : Prop) : Prop :=
  match found with
  | .fits => question
  | .misfit _ => ¬question
  | .blocked _ => False

/-- A fit settles only what is true. -/
@[simp] theorem decides_fits {question : Prop} :
    (fits : Finding α).Decides question ↔ question :=
  -- This is what it means that a fit decides.
  Iff.rfl

/-- A misfit settles only what is false. -/
@[simp] theorem decides_misfit {reason : α} {question : Prop} :
    (misfit reason).Decides question ↔ ¬question :=
  -- This is what it means that a misfit decides.
  Iff.rfl

/-- A finding that is not blocked settles whether it is a fit. -/
theorem decides_eq_fits {found : Finding α} (unblocked : ∀ obstacle, found ≠ .blocked obstacle) :
    found.Decides (found = .fits) := by
  -- A misfit is no fit, and a blocked finding is ruled out.
  cases found with
  | fits => rfl
  | misfit reason => exact fun absurd => nomatch absurd
  | blocked obstacle => exact unblocked obstacle rfl

/-- A finding settles every question with the same answer. -/
theorem Decides.congr {found : Finding α} {question other : Prop}
    (decides : found.Decides question) (same : question ↔ other) : found.Decides other := by
  -- Equivalent propositions are equal, so one can be put for the other.
  rwa [← propext same]

/-- A finding that settles a question is a fit exactly if the answer is yes. -/
theorem Decides.eq_fits_iff {found : Finding α} {question : Prop}
    (decides : found.Decides question) : found = .fits ↔ question := by
  -- An obstacle would decide nothing, and each of the other two has its answer.
  cases found with
  | fits => simpa using decides
  | misfit reason => simpa using decides
  | blocked obstacle => exact decides.elim

/-- A finding that settles a question is a misfit exactly if the answer is no. -/
theorem Decides.exists_misfit_iff {found : Finding α} {question : Prop}
    (decides : found.Decides question) : (∃ reason, found = .misfit reason) ↔ ¬question := by
  -- An obstacle would decide nothing, and each of the other two has its answer.
  cases found with
  | fits => simpa using decides
  | misfit reason => simpa using decides
  | blocked obstacle => exact decides.elim

/-- Rewording a reason leaves what is settled. -/
theorem Decides.map {found : Finding α} {question : Prop} (decides : found.Decides question)
    (reword : α → β) : (found.map reword).Decides question := by
  -- The reason of a misfit plays no part in what the misfit settles.
  cases found with
  | fits => exact decides
  | misfit reason => exact decides
  | blocked obstacle => exact decides

/-- A second check is needed only where the first one finds a fit. -/
theorem Decides.andThen {found : Finding α} {next : Unit → Finding α} {first second : Prop}
    (decides : found.Decides first) (later : first → (next ()).Decides second) :
    (found.andThen next).Decides (first ∧ second) := by
  -- After a misfit the conjunction fails by its first part, whatever the second one says.
  cases found with
  | fits =>
    have holds : first := decides
    exact (later holds).congr (by simp [holds])
  | misfit reason =>
    have fails : ¬first := decides
    exact fun both => fails both.1
  | blocked obstacle => exact decides.elim

/-- Leaving a check out is right where a vacuous hint makes the answer yes. -/
theorem Decides.unlessVacuous {hint : Hint} {found : Unit → Finding α} {question : Prop}
    (vacuous : hint.isVacuous = true → question)
    (decides : (found ()).Decides question) :
    (Finding.unlessVacuous hint found).Decides question := by
  -- The fit found without a check is right by assumption, and a check that is made decides.
  unfold Finding.unlessVacuous
  split
  · next skipped => exact vacuous skipped
  · exact decides

/-- Checking items in turn settles whether all of them pass. -/
theorem decides_firstOf {check : β → Finding α} {passes : β → Prop} {items : List β}
    (each : ∀ item ∈ items, (check item).Decides (passes item)) :
    (firstOf check items).Decides (∀ item ∈ items, passes item) := by
  -- The first item that does not pass already refutes the conjunction over all items.
  induction items with
  | nil => simp
  | cons item rest ih =>
    have head := each item (by simp)
    have tail := ih fun later member => each later (by simp [member])
    rw [firstOf]
    cases found : check item with
    | fits =>
      rw [found] at head
      -- The first item passes, and the question is that about the others.
      exact tail.congr (by simp [decides_fits.mp head])
    | misfit reason =>
      rw [found] at head
      -- The first item is one that does not pass.
      exact fun all => head (all item (by simp))
    | blocked obstacle => rw [found] at head; exact head.elim

/-- A search finds what is no fit exactly where it is found for some item and all items before that
one fit. -/
theorem firstOf_eq_of_ne_fits {check : β → Finding α} {items : List β} {found : Finding α}
    (stops : found ≠ .fits) :
    firstOf check items = found ↔
      ∃ before item after, items = before ++ item :: after ∧
        (∀ earlier ∈ before, check earlier = .fits) ∧ check item = found := by
  -- The search moves on over fits alone, so it stops at the first item that is none.
  induction items with
  | nil => simp [stops.symm]
  | cons item rest ih =>
    rw [firstOf_cons]
    constructor
    · intro searched
      by_cases fits : check item = .fits
      · -- The first item is one more that is passed.
        rw [fits, fits_andThen] at searched
        obtain ⟨before, stop, after, same, passed, stopped⟩ := ih.mp searched
        refine ⟨item :: before, stop, after, by simp [same], ?_, stopped⟩
        intro earlier member
        rcases List.mem_cons.mp member with rfl | member
        · exact fits
        · exact passed earlier member
      · -- The search stops at the first item, with nothing before it.
        rw [andThen_of_ne_fits fits] at searched
        exact ⟨[], item, rest, rfl, by simp, searched⟩
    · rintro ⟨before, stop, after, same, passed, stopped⟩
      cases before with
      | nil =>
        cases same
        rw [andThen_of_ne_fits (stopped ▸ stops), stopped]
      | cons first before =>
        -- The first item is passed, and the search stops where it did in the rest.
        cases same
        rw [passed item (by simp), fits_andThen]
        exact ih.mpr ⟨before, stop, after, rfl, fun earlier member =>
          passed earlier (by simp [member]), stopped⟩

/-- A search finds a misfit exactly where some item is one and all items before it fit. -/
theorem firstOf_eq_misfit {check : β → Finding α} {items : List β} {reason : α} :
    firstOf check items = .misfit reason ↔
      ∃ before item after, items = before ++ item :: after ∧
        (∀ earlier ∈ before, check earlier = .fits) ∧ check item = .misfit reason :=
  -- A misfit is no fit, and whatever is none is found in this way.
  firstOf_eq_of_ne_fits (by simp)

/-- The finding for alternatives from the finding under each: a fit under the first that does not
misfit, or the reasons under all. -/
def anyOf : List (Finding α) → Finding (List α)
  -- Where nothing is offered nothing can fit.
  | [] => .misfit []
  | .fits :: _ => .fits
  | .misfit reason :: rest => (anyOf rest).map (reason :: ·)
  | .blocked obstacle :: _ => .blocked obstacle

/-- Trying alternatives in turn settles whether one of them passes. -/
theorem decides_anyOf {check : β → Finding α} {passes : β → Prop} {items : List β}
    (each : ∀ item ∈ items, (check item).Decides (passes item)) :
    (anyOf (items.map check)).Decides (∃ item ∈ items, passes item) := by
  -- A misfit under the first alternative leaves the question to the others.
  induction items with
  | nil => simp [anyOf]
  | cons item rest ih =>
    have head := each item (by simp)
    have tail := ih fun later member => each later (by simp [member])
    rw [List.map_cons]
    cases found : check item with
    | fits =>
      rw [found] at head
      -- The first item is one that passes.
      exact ⟨item, by simp, head⟩
    | misfit reason =>
      rw [found] at head
      -- The first item does not pass, and the question is that about the others.
      exact (tail.map _).congr (by simp [decides_misfit.mp head])
    | blocked obstacle => rw [found] at head; exact head.elim

/-- A fit among alternatives is a fit under one of them. -/
theorem fits_mem_of_anyOf {found : List (Finding α)} (fits : anyOf found = .fits) :
    .fits ∈ found := by
  -- A misfit under the first alternative leaves it to the others to fit.
  induction found with
  | nil => cases fits
  | cons first rest ih =>
    cases first with
    | fits => simp
    | misfit reason => exact List.mem_cons_of_mem _ (ih (map_eq_fits.mp fits))
    | blocked obstacle => cases fits

/-- Alternatives are a misfit exactly if each of them is one, for the reasons under all. -/
theorem anyOf_eq_misfit {found : List (Finding α)} {reasons : List α} :
    anyOf found = .misfit reasons ↔ found = reasons.map .misfit := by
  -- The reasons are gathered in the order of the alternatives.
  induction found generalizing reasons with
  | nil => cases reasons <;> simp [anyOf]
  | cons first rest ih =>
    cases first with
    | fits => cases reasons <;> simp [anyOf]
    | misfit reason =>
      cases reasons with
      | nil => simp [anyOf]
      | cons reason' reasons =>
        -- The first reason is put before those of the rest.
        rw [anyOf, map_eq_misfit, List.map_cons]
        constructor
        · rintro ⟨inner, misfit, same⟩
          cases same
          rw [ih.mp misfit]
        · intro same
          cases same
          exact ⟨reasons, ih.mpr rfl, rfl⟩
    | blocked obstacle => cases reasons <;> simp [anyOf]

/-- Once an alternative fits, the later ones do not matter, and those before it can only block. -/
theorem anyOf_of_fits {check : β → Finding α} {item : β} (fits : check item = .fits)
    (before after : List β) :
    anyOf ((before ++ item :: after).map check) =
      match anyOf (before.map check) with
      | .blocked obstacle => .blocked obstacle
      | _ => .fits := by
  -- Alternatives are tried in turn, and only a misfit passes the decision on to the next one.
  induction before with
  | nil => rw [List.nil_append, List.map_cons, fits, anyOf, List.map_nil, anyOf]
  | cons first rest ih =>
    rw [List.cons_append, List.map_cons, List.map_cons]
    cases check first with
    | fits => rfl
    | blocked obstacle => rfl
    | misfit reason =>
      -- What is told of the misfit plays no part in either outcome.
      rw [anyOf, anyOf, ih]
      cases anyOf (rest.map check) <;> rfl

/-- Alternatives are blocked exactly where one of them is and all before it are misfits. -/
theorem anyOf_eq_blocked {check : β → Finding α} {items : List β} {obstacle : Obstacle} :
    anyOf (items.map check) = .blocked obstacle ↔
      ∃ before item after, items = before ++ item :: after ∧
        (∀ earlier ∈ before, ∃ reason, check earlier = .misfit reason) ∧
        check item = .blocked obstacle := by
  -- Only misfits are passed over, so the first alternative that is none decides.
  induction items with
  | nil => simp [anyOf]
  | cons item rest ih =>
    rw [List.map_cons]
    constructor
    · intro blocked
      cases found : check item with
      | fits => simp [found, anyOf] at blocked
      | misfit reason =>
        -- Behind a misfit it is the rest that is blocked.
        rw [found, anyOf, map_eq_blocked] at blocked
        obtain ⟨before, stop, after, same, misfits, stopped⟩ := ih.mp blocked
        refine ⟨item :: before, stop, after, by simp [same], ?_, stopped⟩
        intro earlier member
        rcases List.mem_cons.mp member with rfl | member
        · exact ⟨reason, found⟩
        · exact misfits earlier member
      | blocked other =>
        -- The first alternative is the one that is blocked, with nothing before it.
        rw [found, anyOf] at blocked
        cases blocked
        exact ⟨[], item, rest, rfl, by simp, found⟩
    · rintro ⟨before, stop, after, same, misfits, stopped⟩
      cases before with
      | nil =>
        cases same
        rw [stopped, anyOf]
      | cons first before =>
        cases same
        -- The first alternative is passed over, and the rest is blocked where it was.
        obtain ⟨reason, misfit⟩ := misfits item (by simp)
        have later := ih.mpr ⟨before, stop, after, rfl,
          fun earlier member => misfits earlier (by simp [member]), stopped⟩
        rw [misfit, anyOf, map_eq_blocked]
        exact later

/-- The reason that a check finds can be reworded after it may have been left out. -/
theorem unlessVacuous_map (hint : Hint) (found : Finding α) (reword : α → β) :
    (unlessVacuous hint fun _ => found.map reword) =
      (unlessVacuous hint fun _ => found).map reword := by
  -- A check that is left out is a fit, with no reason to reword.
  unfold unlessVacuous
  split <;> rfl

/-- A check that may be left out finds a misfit exactly where it is made and finds one. -/
theorem unlessVacuous_eq_misfit {hint : Hint} {check : Unit → Finding α} {reason : α} :
    unlessVacuous hint check = .misfit reason ↔
      hint.isVacuous = false ∧ check () = .misfit reason := by
  -- A check that was left out found a fit and no misfit.
  unfold unlessVacuous
  cases hint.isVacuous <;> simp

/-- A check that may be left out is blocked exactly where it is made and is blocked. -/
theorem unlessVacuous_eq_blocked {hint : Hint} {check : Unit → Finding α} {obstacle : Obstacle} :
    unlessVacuous hint check = .blocked obstacle ↔
      hint.isVacuous = false ∧ check () = .blocked obstacle := by
  -- Under a vacuous hint the finding is a fit, and otherwise that of the check.
  unfold unlessVacuous
  cases hint.isVacuous <;> simp

end Finding

end Misfit
