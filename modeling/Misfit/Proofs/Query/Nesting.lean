import Misfit.Proofs.Cause.Nesting
import Misfit.Proofs.Cause.Reading
import Misfit.Proofs.Query.Indent
import Misfit.Proofs.Query.Misfits

/-! A cause reads as one outline, in which no line has a single line one level deeper. -/

namespace Misfit

/-- No union of a single member is inside a hint, nor is the hint itself one. -/
def Hint.NoLoneMember (hint : Hint) : Prop :=
  Everywhere Hint.parts (fun part => ∀ member, part ≠ .union [member]) hint

/-- The cause under a union starts with a mismatch for its plain classes, or lists one cause for
each member. -/
theorem Cause.ofMembers_starts_or_lists_all (value : Value) {members : List Hint}
    {causes : List Cause} (same : causes.length = members.length) :
    (∃ refs others, ofMembers value members causes =
        .alternatives value members (.mismatch value (.instanceOf refs) :: others)) ∨
      ofMembers value members causes = .alternatives value members causes := by
  -- Plain classes are told of together and first, if the union has any.
  unfold ofMembers
  cases plain : members.filterMap Hint.plainClass? with
  | cons ref refs => exact .inl ⟨ref :: refs, _, rfl⟩
  | nil =>
    -- Nothing is left out of the pairs, and of each the cause is kept.
    have kept : ∀ pair ∈ members.zip causes, Hint.ofOther? pair = some pair.2 := by
      rintro ⟨member, cause⟩ paired
      have other := List.filterMap_eq_nil_iff.mp plain member (List.of_mem_zip paired).1
      cases member with
      | instanceOf ref => cases other
      | _ => rfl
    have others := List.filterMap_eq_map_iff_forall_eq_some.mpr kept
    rw [List.map_snd_zip same.le] at others
    exact .inr (congrArg (alternatives value members) others)

/-- If causes under several members have no single alternative but mismatches, nor has the cause
under the union of these. -/
theorem Cause.branching_ofMembers {value : Value} {members : List Hint} {causes : List Cause}
    (same : causes.length = members.length) (several : members.length ≠ 1)
    (each : ∀ cause ∈ causes, cause.Branching) : (ofMembers value members causes).Branching := by
  -- Besides the given causes only a mismatch is listed.
  obtain ⟨listed, joined, origins⟩ := mem_ofMembers value members causes
  rw [joined]
  refine .alternatives ?_ ?_
  · intro cause member
    rcases origins cause member with given | ⟨refs, rfl, _⟩
    · exact each cause given
    · exact .mismatch
  · rintro only rfl
    -- What stands alone is that mismatch, or the only cause under the only member.
    rcases ofMembers_starts_or_lists_all value same with ⟨refs, others, starts⟩ | all
    · rw [joined] at starts
      cases starts
      exact ⟨_, _, rfl⟩
    · -- There are as many alternatives as members, and that is not one.
      rw [joined] at all
      cases all
      exact absurd same.symm several

namespace Query

/-- What a check without unions of a single member finds to be a misfit has no single alternative
but mismatches. -/
theorem branching_of_check {query : Query} {hint : Hint} (several : hint.NoLoneMember)
    {value : Value} {reason : Cause} (misfit : hint.check query.classes value = .misfit reason) :
    reason.Branching := by
  -- All hints that are visited on the way have several members in their unions, too.
  refine Hint.misfit_induction query.classes
    (motive := fun hint _ reason => hint.NoLoneMember → reason.Branching) ?_ ?_ ?_
    hint value reason misfit several
  · intro hint value expected _
    exact .mismatch
  · intro hint value visit member inner branching several
    have inside := branching (Hint.everywhere_of_mem_visits (by simp) several member)
    -- A step into the value puts words before what is told inside, and adds no alternatives.
    unfold Hint.Visit.reason
    split
    · exact inside
    · exact .within inside
  · intro members value causes same each several
    apply Cause.branching_ofMembers same
    · intro one
      -- One cause would be that of a lone member, and there is none.
      obtain ⟨member, rfl⟩ := List.length_eq_one_iff.mp one
      exact several.here member rfl
    · intro cause listed
      obtain ⟨member, offered, branching⟩ := each cause listed
      exact branching (several.part offered)

/-- Where no name has a line break and no union has a single member, a cause whose bullets are
indented by spaces reads as one outline with unbroken lines, and in no other way, and the bullets of
that outline nest. -/
theorem cause_reads_as_nested (query : Query) (classNames : query.classes.NamedOnOneLine)
    (named : query.hint.NamedOnOneLine) (several : query.hint.NoLoneMember)
    (nonempty : query.style.bulletIndent ≠ "")
    (spaces : ∀ c ∈ query.style.bulletIndent.toList, c = ' ') {text : String}
    (caused : query.cause = .ok (some text)) :
    ∃ outline : Outline, outline.Nested ∧ ∀ reading : Outline,
      reading.Unbroken ∧ reading.text query.style.bulletIndent query.indent = text ↔
        reading = outline := by
  -- The text is that of the outline of what the check tells.
  obtain ⟨reason, misfit, rfl⟩ := cause_eq_some_iff.mp caused
  have formed := wellFormed_of_check classNames named misfit
  have nested := (branching_of_check several misfit).nested query.classes query.style
  have plain : '*' ∉ query.style.bulletIndent.toList := fun member => nomatch spaces _ member
  rw [Cause.text_eq_outline]
  -- Any other reading has the same text, and an outline is told by its text.
  refine ⟨_, nested, fun reading => ⟨?_, ?_⟩⟩
  · rintro ⟨lines, same⟩
    exact lines.eq_of_text_eq nonempty plain formed.unbroken same
  · rintro rfl
    exact ⟨formed.unbroken, rfl⟩

/-- Alternatives inside a list and a generic hint, among alternatives inside a dictionary. -/
theorem cause_reads_as_nested_stored_lists :
    let classes := (Hierarchy.initial.define "Stack" [.list]).2
    let item : Hint := .union [.instanceOf .int, .literal [.str "a"], .instanceOf .str]
    let list : Hint := .generic .list [.collection .list item]
    let stored : Hint :=
      .union [list, .union [.instanceOf .int, .instanceOf .str], .forwardRef "Stack"]
    let hint : Hint := .mapping .dict .any stored
    let value : Value := .dict [(.none, .container .list [.bytes [10]])]
    let query : Query := ⟨value, hint, "    ", "f() parameter x", classes, {}⟩
    let text := "dict \x7bNone: [b'\\n']\x7d key None value list [b'\\n'] not any member of " ++
      "Union[list, Union[int, str], 'Stack']:\n" ++
      "      * list [b'\\n'] index 0 item bytes b'\\n' not any member of " ++
      "Union[int, Literal['a'], str]:\n" ++
      "        * bytes b'\\n' not int or str\n" ++
      "        * bytes b'\\n' not 'a'\n" ++
      "      * list [b'\\n'] not int or str\n" ++
      "      * list [b'\\n'] not Stack"
    classes.NamedOnOneLine ∧ hint.NamedOnOneLine ∧ hint.NoLoneMember ∧
      query.style.bulletIndent ≠ "" ∧ (∀ c ∈ query.style.bulletIndent.toList, c = ' ') ∧
      query.cause = .ok (some text) ∧
      ∃ outline : Outline, outline.Nested ∧ ∀ reading : Outline,
        reading.Unbroken ∧ reading.text query.style.bulletIndent query.indent = text ↔
          reading = outline := by
  intro classes item list stored hint value query text
  have classNames : classes.NamedOnOneLine := by
    unfold Hierarchy.NamedOnOneLine
    decide
  -- Both that names are on one line and that no member is alone hold of each form in the hint.
  let fine (form : Hint) : Prop := form.GivenOnOneLine ∧ ∀ member, form ≠ .union [member]
  have plain : ∀ ref, Everywhere Hint.parts fine (.instanceOf ref) :=
    fun ref => .leaf ⟨trivial, by simp⟩ rfl
  have any : Everywhere Hint.parts fine .any := .leaf ⟨trivial, by simp⟩ rfl
  have literal : Everywhere Hint.parts fine (.literal [.str "a"]) := .leaf ⟨trivial, by simp⟩ rfl
  have stack : Everywhere Hint.parts fine (.forwardRef "Stack") :=
    .leaf ⟨show OneLine "Stack" by decide, by simp⟩ rfl
  -- The unions are gone through from the inside to the outside.
  have pair : Everywhere Hint.parts fine (.union [.instanceOf .int, .instanceOf .str]) :=
    .intro ⟨trivial, by simp⟩ (by simp [Hint.parts, plain])
  have items : Everywhere Hint.parts fine item :=
    .intro ⟨trivial, by simp [item]⟩ (by simp [item, Hint.parts, plain, literal])
  have collection : Everywhere Hint.parts fine (.collection .list item) :=
    .intro ⟨trivial, by simp⟩ (by simpa [Hint.parts] using items)
  have lists : Everywhere Hint.parts fine list :=
    .intro ⟨trivial, by simp [list]⟩ (by simpa [list, Hint.parts] using collection)
  have alternatives : Everywhere Hint.parts fine stored :=
    .intro ⟨trivial, by simp [stored]⟩ (by simp [stored, Hint.parts, lists, pair, stack])
  have all : Everywhere Hint.parts fine hint :=
    .intro ⟨trivial, by simp [hint]⟩ (by simp [hint, Hint.parts, any, alternatives])
  have named : hint.NamedOnOneLine := all.imp fun _ holds => holds.1
  have several : hint.NoLoneMember := all.imp fun _ holds => holds.2
  have caused : query.cause = .ok (some text) := by decide +kernel
  have nonempty : query.style.bulletIndent ≠ "" := by decide
  have spaces : ∀ c ∈ query.style.bulletIndent.toList, c = ' ' := by
    intro c member
    simpa [query] using member
  exact ⟨classNames, named, several, nonempty, spaces, caused,
    cause_reads_as_nested query classNames named several nonempty spaces caused⟩

end Query

end Misfit
