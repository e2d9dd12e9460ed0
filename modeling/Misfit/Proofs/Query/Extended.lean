import Misfit.Proofs.Hierarchy.Run
import Misfit.Proofs.Hint.Settled
import Misfit.Proofs.Query.Refinement

/-! Answers outlast further definitions, also under names that were in use before. -/

namespace Misfit

namespace Query

/-- A query about a value and a hint all of whose classes are defined has one and the same answer
before and after any further definitions, as long as none of them takes a name that the hint refers
to. Whether the answer is a cause, a failure, or that there is no cause, all of its text is kept,
though the definitions may take names of classes that the text shows. -/
theorem cause_defineAll (query : Query) (more : List Definition)
    (built : query.classes.WellBuilt) (value : query.value.Settled query.classes)
    (hint : query.hint.Settled query.classes)
    (apart : ∀ definition ∈ more, ¬query.hint.RefersTo definition.name) :
    ({ query with classes := (query.classes.defineAll more).2 } : Query).cause = query.cause := by
  have extends_ := query.classes.extends_defineAll more
  -- No further class takes a name that the hint refers to.
  have names : ∀ name, query.hint.RefersTo name →
      (query.classes.defineAll more).2.latest? name = query.classes.latest? name := by
    intro name refers
    apply Hierarchy.latest?_defineAll_of_ne
    intro definition member same
    exact apart definition member (same ▸ refers)
  -- The check finds the same, and what it finds shows nothing but settled things.
  have asked :
      (Hint.settledScope (query.classes.defineAll more).2 query.classes).hints query.hint :=
    ⟨hint, names⟩
  have found := Hint.check_of_extends extends_ built asked value
  have shown := (Hint.closed_settledScope built).tells_check asked value
  have alike := Hint.wordedAlike_settledScope extends_ built query.style
  -- Under both hierarchies the same finding is put into words, of a cause or of a failure.
  rw [cause_eq_word, cause_eq_word]
  simp only [found]
  cases outcome : query.hint.check query.classes query.value with
  | fits => rfl
  | misfit reason =>
    rw [outcome] at shown
    exact congrArg (fun text => Except.ok (some text)) (alike.cause shown query.indent)
  | blocked obstacle =>
    rw [outcome] at shown
    exact congrArg Except.error (alike.failure shown query.label)

/-- Three definitions take the names of a predefined class, of the class of the value's item, and of
the class that a literal names. The cause shows the last two of these names for the earlier classes
as before, and the name that the hint refers to is none of the three. -/
theorem cause_defineAll_shadowing :
    let classes := (Hierarchy.initial.define "Node" [.list]).2
    let value : Value := .container .list [.itemsObject ⟨19⟩ [.classObject ⟨19⟩]]
    let member : Hint := .union [.forwardRef "str", .literal [.int 0, .classObject .list]]
    let hint : Hint := .collection .list (.generic ⟨19⟩ [.collection .list member])
    let query : Query := ⟨value, hint, "", "f() parameter x", classes, {}⟩
    let more : List Definition := [⟨"int", []⟩, ⟨"Node", [.str, ⟨20⟩]⟩, ⟨"list", [⟨21⟩]⟩]
    classes.WellBuilt ∧ classes.Grounded more ∧ value.Settled classes ∧ hint.Settled classes ∧
      (∀ definition ∈ more, ¬hint.RefersTo definition.name) ∧
      (classes.defineAll more).2.latest? "Node" ≠ classes.latest? "Node" ∧
      ({ query with classes := (classes.defineAll more).2 } : Query).cause = query.cause := by
  intro classes value member hint query more
  have built : classes.WellBuilt := .define "Node" .initial (by decide)
  have grounded : classes.Grounded more := ⟨by decide, by decide, by decide, trivial⟩
  -- The value shows one class of its own making, once as a class and once as that of an object.
  have node : (Value.classObject ⟨19⟩).Settled classes := .leaf rfl rfl
  have item : (Value.itemsObject ⟨19⟩ [.classObject ⟨19⟩]).Settled classes :=
    .intro rfl (by simpa [Value.parts, Value.Settled] using node)
  have settled : value.Settled classes :=
    .intro trivial (by simpa [value, Value.parts, Value.Settled] using item)
  -- Of the hint two things are known at every depth: its classes are defined, and its only name.
  let known : Hint → Prop := fun hint =>
    hint.NamedClassesDefined classes ∧ ∀ name, hint = .forwardRef name → name = "str"
  have zero : (Value.int 0).Settled classes := .leaf trivial rfl
  have list : (Value.classObject .list).Settled classes := .leaf rfl rfl
  have reference : Everywhere Hint.parts known (.forwardRef "str") :=
    .leaf ⟨trivial, by simp⟩ rfl
  have literal : Everywhere Hint.parts known (.literal [.int 0, .classObject .list]) :=
    .leaf ⟨by simpa [Hint.NamedClassesDefined] using ⟨zero, list⟩, by simp⟩ rfl
  have members : Everywhere Hint.parts known member :=
    .intro ⟨trivial, by simp [member]⟩ (by simpa [member, Hint.parts] using ⟨reference, literal⟩)
  have items : Everywhere Hint.parts known (.collection .list member) :=
    .intro ⟨trivial, by simp⟩ (by simpa [Hint.parts] using members)
  have generic : Everywhere Hint.parts known (.generic ⟨19⟩ [.collection .list member]) :=
    .intro ⟨rfl, by simp⟩ (by simpa [Hint.parts] using items)
  have whole : Everywhere Hint.parts known hint :=
    .intro ⟨trivial, by simp [hint]⟩ (by simpa [hint, Hint.parts] using generic)
  have asked : hint.Settled classes := whole.imp fun _ both => both.1
  have apart : ∀ definition ∈ more, ¬hint.RefersTo definition.name := by
    -- A name that the hint refers to is the only one there is, and no definition takes it.
    intro definition listed refers
    obtain ⟨_, same, both⟩ := refers.exists_both whole
    have taken : definition.name ∈ more.map (·.name) := List.mem_map_of_mem listed
    rw [both.2 _ same] at taken
    exact absurd taken (by decide)
  exact ⟨built, grounded, settled, asked, apart, by decide,
    cause_defineAll query more built settled asked apart⟩

end Query

end Misfit
