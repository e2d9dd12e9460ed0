import Misfit.Proofs.Hierarchy.Latest

/-! Runs of definitions: what they return, and what is known of every class after them. -/

namespace Misfit

/-- A class that is to be defined. -/
structure Definition where
  name : String
  bases : List ClassRef

/-- What a definition records of its class. A class without bases stands directly below the root. -/
def Definition.record (definition : Definition) : ClassRecord where
  name := definition.name
  bases := if definition.bases.isEmpty then [.object] else definition.bases

namespace Hierarchy

/-- The classes that definitions return when they are made in turn, and the hierarchy after them. -/
def defineAll (classes : Hierarchy) : List Definition → List ClassRef × Hierarchy
  | [] => ([], classes)
  | definition :: rest =>
    let defined := classes.define definition.name definition.bases
    let later := defined.2.defineAll rest
    (defined.1 :: later.1, later.2)

/-- Every definition of a run is over classes that are defined when its turn comes. -/
def Grounded (classes : Hierarchy) : List Definition → Prop
  | [] => True
  | definition :: rest =>
    (∀ base ∈ definition.bases, classes.contains base = true) ∧
      (classes.define definition.name definition.bases).2.Grounded rest

/-- A hierarchy that is built by definitions stays so through a run of further ones. -/
theorem WellBuilt.defineAll {classes : Hierarchy} (built : classes.WellBuilt)
    {run : List Definition} (grounded : classes.Grounded run) :
    (classes.defineAll run).2.WellBuilt := by
  -- Each definition of the run is over classes that are defined when its turn comes.
  induction run generalizing classes with
  | nil => exact built
  | cons definition rest ih =>
    obtain ⟨known, later⟩ := grounded
    exact ih (.define definition.name built known) later

/-- A run extends the hierarchy that it starts from. -/
theorem extends_defineAll (classes : Hierarchy) (run : List Definition) :
    (classes.defineAll run).2.Extends classes := by
  -- Every definition extends what the ones before it have led to.
  induction run generalizing classes with
  | nil => exact .refl classes
  | cons definition rest ih => exact (ih _).trans (classes.extends_define _ _)

/-- A run can be made in two parts. -/
theorem defineAll_append (classes : Hierarchy) (before after : List Definition) :
    (classes.defineAll (before ++ after)).2 =
      ((classes.defineAll before).2.defineAll after).2 := by
  -- The run goes on from where its first part has ended.
  induction before generalizing classes with
  | nil => rfl
  | cons definition rest ih => exact ih _

/-- The first part of a run is over classes that are defined when their turn comes. -/
theorem Grounded.of_append {classes : Hierarchy} {before after : List Definition}
    (grounded : classes.Grounded (before ++ after)) : classes.Grounded before := by
  -- What comes later in a run has no say in what comes before it.
  induction before generalizing classes with
  | nil => trivial
  | cons definition rest ih => exact ⟨grounded.1, ih grounded.2⟩

/-- A name that a run gives to no class stands for the same class after the run. -/
theorem latest?_defineAll_of_ne (classes : Hierarchy) {run : List Definition} {name : String}
    (apart : ∀ definition ∈ run, definition.name ≠ name) :
    (classes.defineAll run).2.latest? name = classes.latest? name := by
  -- Each definition changes what its own name stands for and no more.
  induction run generalizing classes with
  | nil => rfl
  | cons definition rest ih =>
    have later := ih (classes.define definition.name definition.bases).2 fun other member =>
      apart other (by simp [member])
    have own : name ≠ definition.name := (apart definition (by simp)).symm
    rw [defineAll, later, latest?_define, Function.update_of_ne own]

/-- The classes of a run follow those before it, one place after the other. -/
theorem refs_defineAll (classes : Hierarchy) (run : List Definition) :
    (classes.defineAll run).1 =
      (List.range run.length).map fun count => ⟨classes.size + count⟩ := by
  induction run generalizing classes with
  | nil => rfl
  | cons definition rest ih =>
    -- The first class takes the first free place, and then there is one more class before the rest.
    rw [defineAll, ih, size_define, List.length_cons, List.range_succ_eq_map, List.map_cons,
      List.map_map]
    simp only [define, Nat.add_zero, Nat.add_assoc, Nat.add_comm 1, Function.comp_def,
      Nat.succ_eq_add_one]

/-- Each class of a run is recorded after it as its definition says. -/
theorem get?_defineAll {classes : Hierarchy} {run : List Definition} {count : Nat}
    {definition : Definition} (listed : run[count]? = some definition) :
    (classes.defineAll run).2.get? ⟨classes.size + count⟩ = some definition.record := by
  -- By induction on the run, whose first definition takes the next place.
  induction run generalizing classes count with
  | nil => simp at listed
  | cons first rest ih =>
    cases count with
    | zero =>
      -- The record that the first definition makes is left as it is by all others.
      cases listed
      have defined : (classes.define definition.name definition.bases).2.contains
          ⟨classes.size⟩ = true := by simp [contains]
      have kept := (extends_defineAll _ rest) _ defined
      rw [get?_define, if_pos rfl] at kept
      exact kept
    | succ count =>
      -- The other classes of the run stand one place further behind than in the run without it.
      have place : classes.size + (count + 1) =
          (classes.define first.name first.bases).2.size + count := by
        rw [size_define, Nat.add_assoc, Nat.add_comm 1]
      rw [place]
      exact ih listed

/-- After any run of definitions on the initial hierarchy, each of them over defined classes, the
classes of the run are those behind the predefined ones, in order; each is recorded under its own
name with its own bases, and the predefined ones as before; the latest class of a name is the one
entered last under it, which is the greatest with that name, and there is none only for a name that
no class has; and all that is known of a class, and all that it descends from, has stayed the same
since it was defined. -/
theorem defineAll_initial (run : List Definition) (grounded : Hierarchy.initial.Grounded run) :
    let classes := (Hierarchy.initial.defineAll run).2
    (Hierarchy.initial.defineAll run).1 =
        (List.range run.length).map (fun count => ⟨ClassRef.predefinedCount + count⟩) ∧
      (∀ count definition, run[count]? = some definition →
        classes.get? ⟨ClassRef.predefinedCount + count⟩ = some definition.record) ∧
      classes.Extends Hierarchy.initial ∧
      (∀ name ref, classes.latest? name = some ref ↔
        classes.Named name ref ∧ ∀ other, classes.Named name other → other.index ≤ ref.index) ∧
      (∀ name, classes.latest? name = none ↔ ∀ ref, ¬classes.Named name ref) ∧
      classes.latest? = indexOf classes.names ∧
      ∀ before after, run = before ++ after →
        let earlier := (Hierarchy.initial.defineAll before).2
        ∀ ref, earlier.contains ref = true → classes.get? ref = earlier.get? ref ∧
          ∀ parent, classes.derives ref parent = earlier.derives ref parent := by
  -- What is said of each class of the run is known, and the rest is about a run in two parts.
  intro classes
  have whole : classes.WellBuilt := WellBuilt.initial.defineAll grounded
  refine ⟨refs_defineAll _ run, fun _ _ => get?_defineAll, extends_defineAll _ run,
    fun _ _ => latest?_eq_some_iff, fun _ => latest?_eq_none_iff, whole.latest?_eq_indexOf, ?_⟩
  -- What comes after a class was defined extends the hierarchy that it was defined in.
  rintro before after rfl earlier ref defined
  have built : earlier.WellBuilt := WellBuilt.initial.defineAll grounded.of_append
  have later : classes.Extends earlier := by
    show (Hierarchy.initial.defineAll (before ++ after)).2.Extends earlier
    rw [defineAll_append]
    exact extends_defineAll earlier after
  exact ⟨later ref defined, fun parent => later.derives_eq built defined parent⟩

/-- A run that takes the name of a predefined class, and then one name twice. The first class of
that name keeps its record and its descent, and the second one is the latest. -/
theorem defineAll_initial_redefined :
    let run : List Definition := [⟨"int", []⟩, ⟨"Node", [.list]⟩, ⟨"Node", [⟨20⟩, ⟨19⟩, .int]⟩]
    let classes := (Hierarchy.initial.defineAll run).2
    let earlier := (Hierarchy.initial.defineAll [⟨"int", []⟩, ⟨"Node", [.list]⟩]).2
    Hierarchy.initial.Grounded run ∧
      (Hierarchy.initial.defineAll run).1 = [⟨19⟩, ⟨20⟩, ⟨21⟩] ∧
      classes.get? ⟨19⟩ = some ⟨"int", [.object]⟩ ∧ classes.get? .int = some ⟨"int", [.object]⟩ ∧
      classes.get? ⟨20⟩ = some ⟨"Node", [.list]⟩ ∧
      classes.latest? "int" = some ⟨19⟩ ∧ classes.latest? "Node" = some ⟨21⟩ ∧
      ∀ parent, classes.derives ⟨20⟩ parent = earlier.derives ⟨20⟩ parent := by
  -- The new classes come right behind the predefined ones, in the order of the run.
  intro run classes earlier
  have grounded : Hierarchy.initial.Grounded run := ⟨by decide, by decide, by decide, trivial⟩
  obtain ⟨refs, records, before, _, _, index, stable⟩ := defineAll_initial run grounded
  have kept := stable [⟨"int", []⟩, ⟨"Node", [.list]⟩] [⟨"Node", [⟨20⟩, ⟨19⟩, .int]⟩] rfl
    ⟨20⟩ (by decide)
  exact ⟨grounded, refs, records 0 _ rfl, before .int (by decide), records 1 _ rfl,
    (congrFun index "int").trans (by decide), (congrFun index "Node").trans (by decide), kept.2⟩

end Hierarchy

end Misfit
