import Misfit.Proofs.Cause.Scope
import Misfit.Proofs.Query.Answer
import Misfit.Proofs.Value.Uncut

/-! The limit on the texts of values matters only where one of them is cut. -/

namespace Misfit

namespace Hint

/-- Whether the values that a hint itself names are shown in full under a limit. -/
def NamedValuesUncut (classes : Hierarchy) (limit : Nat) (hint : Hint) : Prop :=
  ∀ named, hint = .literal named → ∀ value ∈ named, value.Uncut classes limit

/-- A hint that is no literal names no values. -/
theorem namedValuesUncut_of_ne {classes : Hierarchy} {limit : Nat} {hint : Hint}
    (notLiteral : ∀ named, hint ≠ .literal named) : NamedValuesUncut classes limit hint :=
  -- There is no literal whose values would have to be shown.
  fun named same => absurd same (notLiteral named)

/-- Every value that is named in a hint, at every depth, is shown in full under a limit. -/
def Uncut (classes : Hierarchy) (limit : Nat) (hint : Hint) : Prop :=
  Everywhere parts (NamedValuesUncut classes limit) hint

/-- Values that are shown in full under a limit, and hints that name only such values. -/
def uncutScope (classes : Hierarchy) (limit : Nat) : Scope where
  values := Value.Uncut classes limit
  hints := Uncut classes limit

/-- What a check of something in this scope looks at stays in scope. -/
theorem closed_uncutScope (classes : Hierarchy) (limit : Nat) :
    (uncutScope classes limit).Closed classes := by
  -- A class is no literal, and has no parts that could be one.
  have class_ : ∀ ref, (Hint.instanceOf ref).Uncut classes limit :=
    fun ref => .leaf (namedValuesUncut_of_ne (by simp)) rfl
  constructor
  case item => exact fun shown part member => shown.of_noLonger (Value.noLonger_item classes member)
  -- What can be seen inside a value is shown in its text, and so is no longer.
  case entry =>
    intro value shown entry member
    obtain ⟨key, stored⟩ := Value.noLonger_entry classes member
    exact ⟨shown.of_noLonger key, shown.of_noLonger stored⟩
  case part => exact fun asked part member => asked.part member
  case origin => exact fun _ _ => class_ _
  case subclass => exact fun _ => class_ _
  case latest => exact fun _ _ => class_ _
  case literal => exact fun asked => asked.here _ rfl

/-- What is shown in full under a limit is worded alike under any two limits that are not smaller.
-/
theorem wordedAlike_uncutScope {classes : Hierarchy} {limit : Nat} {style style' : Style}
    (enough : limit ≤ style.excerptLimit) (enough' : limit ≤ style'.excerptLimit)
    (bulletIndent : style.bulletIndent = style'.bulletIndent) :
    (uncutScope classes limit).WordedAlike classes classes style style' where
  -- Limits matter to the texts of values only, and these are shown in full under both.
  className _ := rfl
  brief shown := (shown.brief_eq enough).trans (shown.brief_eq enough').symm
  hint _ := rfl
  bulletIndent := bulletIndent

end Hint

namespace Query

/-- The query with another limit on the texts of values. -/
def withLimit (query : Query) (limit : Nat) : Query :=
  { query with style := { query.style with excerptLimit := limit } }

/-- A finding that stays in scope is put into the same words by two queries that word all of the
scope alike. -/
theorem word_eq_of_wordedAlike (query other : Query) {scope : Scope}
    (alike : scope.WordedAlike query.classes other.classes query.style other.style)
    (indent : query.indent = other.indent) (label : query.label = other.label)
    {found : Finding Cause}
    (told : found.Tells (Cause.ShowsOnly scope) (Obstacle.ShowsOnly scope)) :
    query.word found = other.word found := by
  -- What does not depend on the scope, the indent and the label, is the same in both.
  cases found with
  | fits => rfl
  | misfit reason =>
    rw [word, word, alike.cause told, indent]
  | blocked obstacle =>
    rw [word, word, alike.failure told, label]

/-- A query about a value and a hint that are shown in full under both of two limits, the values
that the hint names included, has one and the same answer under these limits, text and all. -/
theorem cause_withLimit (query : Query) (first second : Nat)
    (value : query.value.Uncut query.classes (min first second))
    (hint : query.hint.Uncut query.classes (min first second)) :
    (query.withLimit first).cause = (query.withLimit second).cause := by
  -- The limit has no part in the check, and what the check tells is shown in full.
  have closed := Hint.closed_uncutScope query.classes (min first second)
  have told := closed.tells_check hint value
  have alike : (Hint.uncutScope query.classes (min first second)).WordedAlike query.classes
      query.classes (query.withLimit first).style (query.withLimit second).style :=
    Hint.wordedAlike_uncutScope (Nat.min_le_left _ _) (Nat.min_le_right _ _) rfl
  rw [cause_eq_word, cause_eq_word]
  exact word_eq_of_wordedAlike (query.withLimit first) (query.withLimit second) alike rfl rfl told

/-- The text of the value is just as long as the smaller limit, and a byte of the value is described
under a literal whose text is nearly as long; under a limit that is smaller by one the answer is
another. -/
theorem cause_withLimit_just_enough :
    let value : Value := .dict [(.str "é\n", .bytes [255, 65])]
    let named : Value := .container .tuple [.str "four", .int 123456]
    let hint : Hint := .mapping .dict .any (.collection .sequence (.literal [named]))
    let query : Query := ⟨value, hint, "", "f() parameter x", .initial, {}⟩
    value.Uncut .initial (min 17 96) ∧ hint.Uncut .initial (min 17 96) ∧
      (query.withLimit 17).cause = (query.withLimit 96).cause ∧
      (query.withLimit 17).cause ≠ (query.withLimit 16).cause := by
  -- The longest text that has to be shown has just as many characters as the smaller limit.
  intro value named hint query
  have shown : value.Uncut .initial (min 17 96) := by
    unfold Value.Uncut
    decide +kernel
  have namedShown : named.Uncut .initial (min 17 96) := by
    unfold Value.Uncut
    decide +kernel
  -- The only literal of the hint stands at some depth.
  have literal : (Hint.literal [named]).Uncut .initial (min 17 96) := by
    refine .leaf ?_ rfl
    rintro _ ⟨rfl⟩
    simpa using namedShown
  have asked : hint.Uncut .initial (min 17 96) := by
    have any : Hint.any.Uncut .initial (min 17 96) :=
      .leaf (Hint.namedValuesUncut_of_ne (by simp)) rfl
    have items : (Hint.collection .sequence (.literal [named])).Uncut .initial (min 17 96) :=
      .intro (Hint.namedValuesUncut_of_ne (by simp))
        (by simpa [Hint.parts, Hint.Uncut] using literal)
    exact .intro (Hint.namedValuesUncut_of_ne (by simp [hint]))
      (by simpa [hint, Hint.parts, Hint.Uncut] using And.intro any items)
  exact ⟨shown, asked, cause_withLimit query 17 96 shown asked, by decide +kernel⟩

end Query

end Misfit
