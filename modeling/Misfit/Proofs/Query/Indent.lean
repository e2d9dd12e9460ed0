import Misfit.Proofs.Cause.Outline
import Misfit.Proofs.Cause.Scope
import Misfit.Proofs.Query.Answer

/-! The indent of a query is put in after the line breaks of a cause, and nowhere else. -/

namespace Misfit

namespace Hint

/-- All values, and the hints that have their names on one line. -/
def namedScope : Scope where
  values _ := True
  hints := NamedOnOneLine

/-- A plain class was given no text of its own. -/
theorem namedOnOneLine_instanceOf (ref : ClassRef) : (Hint.instanceOf ref).NamedOnOneLine :=
  -- Its name is that of its class.
  .leaf trivial rfl

/-- What a check of a hint with names on one line looks at has its names on one line. -/
theorem closed_namedScope (classes : Hierarchy) : namedScope.Closed classes where
  -- The scope is about hints alone, and a check makes up no hints but plain classes.
  item _ _ _ := trivial
  entry _ _ _ := ⟨trivial, trivial⟩
  part named _ member := named.part member
  origin _ _ := namedOnOneLine_instanceOf _
  subclass _ := namedOnOneLine_instanceOf _
  latest _ _ := namedOnOneLine_instanceOf _
  literal _ _ _ := trivial

end Hint

/-- A cause that shows no hints but those with names on one line has a well-formed outline. -/
theorem Cause.ShowsOnly.wellFormed {classes : Hierarchy} (classNames : classes.NamedOnOneLine)
    (style : Style) {cause : Cause} (only : cause.ShowsOnly Hint.namedScope) :
    (cause.outline classes style).WellFormed := by
  induction only with
  | mismatch => exact wellFormed_mismatch classNames _ _
  -- A step into the value puts words before the headline, and leaves the bullets as they are.
  | within _ _ _ formed => exact wellFormed_within classNames _ _ formed
  | alternatives _ named _ each => exact wellFormed_alternatives classNames _ named each

namespace Query

/-- A misfit under hints with names on one line has a well-formed outline. -/
theorem wellFormed_of_check {query : Query} (classNames : query.classes.NamedOnOneLine)
    {hint : Hint} (named : hint.NamedOnOneLine) {value : Value} {reason : Cause}
    (misfit : hint.check query.classes value = .misfit reason) :
    (reason.outline query.classes query.style).WellFormed := by
  -- All that the check tells stays in the scope of such hints.
  have shown : Hint.namedScope.values value := trivial
  have tells := (Hint.closed_namedScope query.classes).tells_check named shown
  rw [misfit] at tells
  exact tells.wellFormed classNames query.style

/-- A cause has bulleted lines below its first one. -/
theorem bulletedBelow_of_cause (query : Query) (classNames : query.classes.NamedOnOneLine)
    (named : query.hint.NamedOnOneLine) (bulletSpace : OneLine query.style.bulletIndent)
    (space : OneLine query.indent) {text : String} (caused : query.cause = .ok (some text)) :
    BulletedBelow query.style.bulletIndent query.indent text := by
  -- What is told of a misfit is the text of a well-formed outline.
  obtain ⟨reason, misfit, rfl⟩ := cause_eq_some_iff.mp caused
  rw [Cause.text_eq_outline]
  exact (wellFormed_of_check classNames named misfit).bulletedBelow_text bulletSpace space

/-- Where no name and no bullet indent has a line break, the answer under an indent is that under
none, with the indent put in after every line break of a cause. Under no indent every line break is
followed by bullet indents and an asterisk, so under one without a line break every later line
starts with that indent. -/
theorem cause_indent (query : Query) (indent : String)
    (classNames : query.classes.NamedOnOneLine) (named : query.hint.NamedOnOneLine)
    (bulletSpace : OneLine query.style.bulletIndent) :
    let flush : Query := { query with indent := "" }
    let indented : Query := { query with indent }
    indented.cause = flush.cause.map (Option.map (indentLines indent)) ∧
      (∀ text, flush.cause = .ok (some text) →
        BulletedBelow query.style.bulletIndent "" text) ∧
      (OneLine indent → ∀ text, indented.cause = .ok (some text) →
        BulletedBelow query.style.bulletIndent indent text) := by
  -- The check is the same under every indent, and the indent comes in with the words.
  intro flush indented
  refine ⟨?_, ?_, ?_⟩
  · -- Both answers word the same finding, and only a misfit is worded with the indent.
    rw [cause_eq_word, cause_eq_word]
    show indented.word (query.hint.check query.classes query.value) =
      (flush.word (query.hint.check query.classes query.value)).map _
    cases checked : query.hint.check query.classes query.value with
    | fits => rfl
    | misfit reason =>
      have formed := wellFormed_of_check classNames named checked
      have moved := formed.text_eq_indentLines bulletSpace indent
      rw [← Cause.text_eq_outline, ← Cause.text_eq_outline] at moved
      simp only [word, Except.map, Option.map, flush, indented, moved]
    | blocked obstacle => rfl
  · intro text caused
    have none : OneLine "" := by decide
    exact flush.bulletedBelow_of_cause classNames named bulletSpace none caused
  · intro space text caused
    exact indented.bulletedBelow_of_cause classNames named bulletSpace space caused

/-- A list with bytes, under a key that ends in a line break, and a union with another inside. -/
theorem cause_indent_nested_union :
    let classes := (Hierarchy.initial.define "Stack" [.list]).2
    let bytes : Hint := .union [.instanceOf .int, .literal [.str "a\nb"]]
    let stored : Hint := .union [.collection .list bytes, .forwardRef "Stack"]
    let hint : Hint := .mapping .dict (.instanceOf .str) stored
    let value : Value := .dict [(.str "k\n", .container .list [.int 1, .bytes [10]])]
    let query : Query := ⟨value, hint, "", "f() parameter x", classes, {}⟩
    let indented : Query := { query with indent := "    " }
    classes.NamedOnOneLine ∧ hint.NamedOnOneLine ∧ OneLine query.style.bulletIndent ∧
      OneLine "    " ∧
      indented.cause = query.cause.map (Option.map (indentLines "    ")) ∧
      (∀ text, query.cause = .ok (some text) →
        BulletedBelow query.style.bulletIndent "" text) ∧
      (∀ text, indented.cause = .ok (some text) →
        BulletedBelow query.style.bulletIndent "    " text) ∧
      indented.cause = .ok (some ("dict \x7b'k\\n': [1, b'\\n']\x7d key 'k\\n' value " ++
        "list [1, b'\\n'] not any member of " ++
        "Union[List[Union[int, Literal['a\\nb']]], 'Stack']:\n" ++
        "      * list [1, b'\\n'] index 1 item " ++
        "bytes b'\\n' not any member of Union[int, Literal['a\\nb']]:\n" ++
        "        * bytes b'\\n' not int\n" ++
        "        * bytes b'\\n' not 'a\\nb'\n" ++
        "      * list [1, b'\\n'] not Stack")) := by
  -- The line breaks of the key and of the bytes are escaped in the texts of the values.
  intro classes bytes stored hint value query indented
  have classNames : classes.NamedOnOneLine := by
    unfold Hierarchy.NamedOnOneLine
    decide
  -- Every name that was given to the hint is on one line, from the inside to the outside.
  have int : (Hint.instanceOf .int).NamedOnOneLine := .leaf trivial rfl
  have str : (Hint.instanceOf .str).NamedOnOneLine := .leaf trivial rfl
  have literal : (Hint.literal [.str "a\nb"]).NamedOnOneLine := .leaf trivial rfl
  have stack : (Hint.forwardRef "Stack").NamedOnOneLine :=
    .leaf (show OneLine "Stack" by decide) rfl
  have items : bytes.NamedOnOneLine :=
    .intro trivial (by simpa [bytes, Hint.parts] using ⟨int, literal⟩)
  have list : (Hint.collection .list bytes).NamedOnOneLine :=
    .intro trivial (by simpa [Hint.parts, Hint.NamedOnOneLine] using items)
  have union : stored.NamedOnOneLine :=
    .intro trivial (by simpa [stored, Hint.parts] using ⟨list, stack⟩)
  have named : hint.NamedOnOneLine :=
    .intro trivial (by simpa [hint, Hint.parts] using ⟨str, union⟩)
  have bulletSpace : OneLine query.style.bulletIndent := by decide
  have space : OneLine "    " := by decide
  obtain ⟨moved, flush, later⟩ := cause_indent query "    " classNames named bulletSpace
  exact ⟨classNames, named, bulletSpace, space, moved, flush, later space, by decide +kernel⟩

end Query

end Misfit
