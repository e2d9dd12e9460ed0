import Misfit.Hierarchy.Derives

/-! The walk over bases finds exactly the classes above a class. -/

namespace Misfit

namespace Hierarchy

/-- A class descends from itself, from the root if it is defined, and from whatever its direct bases
descend from. -/
inductive Descends (classes : Hierarchy) : ClassRef → ClassRef → Prop where
  | refl {ref : ClassRef} : Descends classes ref ref
  | root {child : ClassRef} (defined : classes.contains child = true) :
      Descends classes child .object
  | base {child base parent : ClassRef} (direct : base ∈ classes.basesOf child)
      (above : Descends classes base parent) : Descends classes child parent

/-- A climb by one base or more, on which every class between its two ends is an allowed one. -/
inductive Leads (classes : Hierarchy) (allowed : List ClassRef) : ClassRef → ClassRef → Prop where
  | direct {child parent : ClassRef} (base : parent ∈ classes.basesOf child) :
      Leads classes allowed child parent
  | through {child base parent : ClassRef} (direct : base ∈ classes.basesOf child)
      (inside : base ∈ allowed) (above : Leads classes allowed base parent) :
      Leads classes allowed child parent

/-- A climb stays possible when more classes are allowed on it. -/
theorem Leads.mono {classes : Hierarchy} {allowed more : List ClassRef}
    (subset : ∀ ref ∈ allowed, ref ∈ more) {child parent : ClassRef}
    (leads : classes.Leads allowed child parent) : classes.Leads more child parent := by
  -- Only the classes between the ends are looked at, and each of them stays allowed.
  induction leads with
  | direct base => exact .direct base
  | through direct inside _ ih => exact .through direct (subset _ inside) ih

/-- A climb avoids the marked classes or can be resumed from the last of them that it meets. -/
theorem Leads.split {classes : Hierarchy} {allowed : List ClassRef} (marked : ClassRef → Bool)
    {child parent : ClassRef} (leads : classes.Leads allowed child parent) :
    classes.Leads (allowed.filter fun ref => !marked ref) child parent ∨
      ∃ last ∈ allowed.filter marked,
        classes.Leads (allowed.filter fun ref => !marked ref) last parent := by
  -- Going down from the top, the first marked class met is the last one of the climb.
  induction leads with
  | direct base => exact .inl (.direct base)
  | @through child base parent direct inside _ ih =>
    rcases ih with avoids | later
    · -- The climb above the base meets no marked class, so the base may be the last one.
      cases met : marked base with
      | false => exact .inl (.through direct (by simp [inside, met]) avoids)
      | true => exact .inr ⟨base, by simp [inside, met], avoids⟩
    · exact .inr later

/-- The walk succeeds exactly if a pending class leads to the target through unvisited classes. -/
theorem reaches_iff_leads (classes : Hierarchy) (target : ClassRef)
    (unvisited pending : List ClassRef) :
    classes.reaches target unvisited pending = true ↔
      ∃ ref ∈ pending, classes.Leads unvisited ref target := by
  -- The induction follows the walk: each turn marks the unvisited bases of one pending class.
  induction unvisited, pending using reaches.induct classes with
  | case1 unvisited => simp [reaches]
  | case2 unvisited ref pending bases ih =>
    have isBase : (classes.basesOf ref).contains target = true ↔
        target ∈ classes.basesOf ref := by simp
    simp only [List.unattach_filter, List.unattach_attach] at ih
    rw [reaches, Bool.or_eq_true, isBase, ih]
    constructor
    · -- A class met on the walk is a base of the one just spent, or was pending before.
      rintro (direct | ⟨next, member, leads⟩)
      · exact ⟨ref, by simp, .direct direct⟩
      · have wider : classes.Leads unvisited next target :=
          leads.mono fun _ inside => (List.mem_filter.mp inside).1
        rcases List.mem_append.mp member with fresh | waiting
        · obtain ⟨inside, direct⟩ := List.mem_filter.mp fresh
          exact ⟨ref, by simp, .through (by simpa [bases] using direct) inside wider⟩
        · exact ⟨next, by simp [waiting], wider⟩
    · rintro ⟨start, member, leads⟩
      -- A climb that meets the marked bases goes on from the last of them, which is now pending.
      rcases leads.split bases.contains with avoids | ⟨last, fresh, avoids⟩
      · rcases List.mem_cons.mp member with rfl | waiting
        · cases avoids with
          | direct base => exact .inl base
          | through direct inside above =>
            -- The first class above the one just spent is one of its bases, and all are marked.
            have unmarked := (List.mem_filter.mp inside).2
            simp [bases, direct] at unmarked
        · exact .inr ⟨start, List.mem_append.mpr (.inr waiting), avoids⟩
      · exact .inr ⟨last, List.mem_append.mpr (.inl fresh), avoids⟩

/-- Only a defined class has bases. -/
theorem contains_of_mem_basesOf {classes : Hierarchy} {child base : ClassRef}
    (direct : base ∈ classes.basesOf child) : classes.contains child = true := by
  -- Without a record the list of bases is empty.
  unfold basesOf get? at direct
  cases found : classes.records[child.index]? with
  | none => simp [found] at direct
  | some record =>
    obtain ⟨inside, _⟩ := Array.getElem?_eq_some_iff.mp found
    simp [contains, size, inside]

/-- The listed classes are the defined ones. -/
theorem mem_refs {classes : Hierarchy} {ref : ClassRef} :
    ref ∈ classes.refs ↔ classes.contains ref = true := by
  -- Both say that the reference's place is below the number of classes.
  cases ref with
  | mk index => simp [refs, contains]

/-- Whatever a climb leads to is above its start. -/
theorem Leads.descends {classes : Hierarchy} {allowed : List ClassRef} {child parent : ClassRef}
    (leads : classes.Leads allowed child parent) : classes.Descends child parent := by
  -- Each base of the climb is a base of the descent.
  induction leads with
  | direct base => exact .base base .refl
  | through direct _ _ ih => exact .base direct ih

/-- Descent from another class than the root is a climb through defined classes. -/
theorem Descends.leads {classes : Hierarchy} {child parent : ClassRef}
    (descends : classes.Descends child parent) (different : child ≠ parent)
    (notRoot : parent ≠ .object) : classes.Leads classes.refs child parent := by
  -- Every class between the ends has a base of its own, so it is defined.
  induction descends with
  | refl => contradiction
  | root => contradiction
  | @base child base parent direct _ ih =>
    by_cases same : base = parent
    · subst same
      exact .direct direct
    · -- The climb above the base starts with a base of the base, whatever its length.
      have above := ih same notRoot
      have inside : classes.contains base = true := by
        cases above with
        | direct further => exact contains_of_mem_basesOf further
        | through further _ _ => exact contains_of_mem_basesOf further
      exact .through direct (mem_refs.mpr inside) above

/-- Besides the root itself, the defined classes are those that descend from the root. -/
theorem Descends.root_cases {classes : Hierarchy} {child : ClassRef}
    (descends : classes.Descends child .object) :
    child = .object ∨ classes.contains child = true := by
  -- A class with bases is defined too.
  cases descends with
  | refl => exact .inl rfl
  | root defined => exact .inr defined
  | base direct _ => exact .inr (contains_of_mem_basesOf direct)

/-- The executable test decides descent, whatever the bases of the classes are. -/
theorem derives_iff_descends (classes : Hierarchy) (child parent : ClassRef) :
    classes.derives child parent = true ↔ classes.Descends child parent := by
  -- The test has one case each for the class itself, for the root and for the walk.
  unfold derives
  by_cases same : child = parent
  · -- Every class descends from itself, defined or not.
    subst same
    simp [Descends.refl]
  · by_cases root : parent = .object
    · -- The walk is not taken for the root, which has no need to be named as a base.
      subst root
      simp only [same, beq_iff_eq, Bool.or_eq_true, ↓reduceIte, false_or]
      exact ⟨.root, fun descends => descends.root_cases.resolve_left same⟩
    · simp only [same, root, beq_iff_eq, Bool.or_eq_true, ↓reduceIte, false_or, reaches_iff_leads,
        List.mem_singleton, exists_eq_left]
      exact ⟨Leads.descends, fun descends => descends.leads same root⟩

end Hierarchy

end Misfit
