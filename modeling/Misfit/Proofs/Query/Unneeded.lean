import Misfit.Proofs.Finding.Compare
import Misfit.Proofs.Hint.Equality
import Misfit.Proofs.Query.Union

/-! Parts of a hint that an answer did not need: whatever stands in their place, the answer is the
same apart from its words. -/

namespace Misfit

namespace Hint

/-- A hint with a hole in place of one of its parts, at any depth. -/
inductive Context where
  | hole
  | union (before : List Hint) (inside : Context) (after : List Hint)
  | collection (form : CollectionForm) (inside : Context)
  | tuple (before : List Hint) (inside : Context) (after : List Hint)
  | tupleOf (inside : Context)
  | mappingKey (form : MappingForm) (inside : Context) (value : Hint)
  | mappingValue (form : MappingForm) (key : Hint) (inside : Context)
  | generic (origin : ClassRef) (before : List Hint) (inside : Context) (after : List Hint)

/-- The hint with another one in place of the hole. -/
def Context.fill : Context → Hint → Hint
  | .hole, hint => hint
  | .union before inside after, hint => .union (before ++ inside.fill hint :: after)
  | .collection form inside, hint => .collection form (inside.fill hint)
  | .tuple before inside after, hint => .tuple (before ++ inside.fill hint :: after)
  | .tupleOf inside, hint => .tupleOf (inside.fill hint)
  | .mappingKey form inside value, hint => .mapping form (inside.fill hint) value
  | .mappingValue form key inside, hint => .mapping form key (inside.fill hint)
  | .generic origin before inside after, hint =>
    .generic origin (before ++ inside.fill hint :: after)

/-- The second hint has others in place of some hints of unknown form in the first one. -/
inductive Supplied : Hint → Hint → Prop where
  | same {hint : Hint} : Supplied hint hint
  | foreign {text : String} {hint : Hint} : Supplied (.foreign text) hint
  | inside {hint other : Hint} (form : SameForm hint other)
      (each : List.Forall₂ Supplied hint.parts other.parts) : Supplied hint other

/-- A list in which one hint is supplied is supplied hint by hint. -/
theorem supplied_around {hint other : Hint} (supplied : hint.Supplied other)
    (before after : List Hint) :
    List.Forall₂ Supplied (before ++ hint :: after) (before ++ other :: after) :=
  -- All the other hints of the list stay as they are.
  List.rel_append (List.forall₂_same.mpr fun _ _ => .same)
    (.cons supplied (List.forall₂_same.mpr fun _ _ => .same))

/-- A hint of unknown form in the hole is supplied by whatever else the hole is filled with. -/
theorem Context.supplied_fill (context : Context) (text : String) (hint : Hint) :
    (context.fill (.foreign text)).Supplied (context.fill hint) := by
  -- All parts around the hole stay as they are.
  induction context with
  | hole => exact .foreign
  | union before inside after ih => exact .inside .union (supplied_around ih before after)
  | collection form inside ih => exact .inside .collection (.cons ih .nil)
  | tuple before inside after ih => exact .inside .tuple (supplied_around ih before after)
  | tupleOf inside ih => exact .inside .tupleOf (.cons ih .nil)
  -- Beside a key there is the hint for what is stored, and the other way round.
  | mappingKey form inside value ih => exact .inside .mapping (.cons ih (.cons .same .nil))
  | mappingValue form key inside ih => exact .inside .mapping (.cons .same (.cons ih .nil))
  | generic origin before inside after ih =>
    exact .inside .generic (supplied_around ih before after)

namespace Supplied

/-- Only a hint of unknown form can be supplied by one that asks less or more of values. -/
theorem isVacuous_eq {hint other : Hint} (supplied : hint.Supplied other) :
    hint.isVacuous = other.isVacuous ∨ ∃ text, hint = .foreign text := by
  -- Apart from such a hint itself, the outermost form is kept.
  cases supplied with
  | same => exact .inl rfl
  | foreign => exact .inr ⟨_, rfl⟩
  | inside form _ => exact .inl form.isVacuous_eq

/-- A check that may be left out is kept, if it is kept where it is made. -/
theorem keptBy_unlessVacuous {hint other : Hint} (supplied : hint.Supplied other)
    {classes : Hierarchy} {value : Value}
    (kept : (hint.check classes value).KeptBy (other.check classes value)) :
    (Finding.unlessVacuous hint fun _ => hint.check classes value).KeptBy
      (Finding.unlessVacuous other fun _ => other.check classes value) := by
  -- Both checks are left out together, unless the first hint is of unknown form.
  rcases supplied.isVacuous_eq with together | ⟨text, rfl⟩
  · exact kept.unlessVacuous together
  · -- A hint of unknown form is never left out, and then there is no verdict to keep.
    exact Finding.keptBy_of_blocked (.unknownForm (.foreign text)) _

/-- What a check finds under a hint is kept when hints of unknown form in it are supplied. -/
theorem keptBy_check {hint other : Hint} (supplied : hint.Supplied other) (classes : Hierarchy)
    (value : Value) : (hint.check classes value).KeptBy (other.check classes value) := by
  -- An obstacle that was not met stays out of reach, for all before it is found as it was.
  induction hint, value using visits_induction classes generalizing other with
  | step hint value visited members =>
    cases supplied with
    | same => exact .refl _
    | @foreign text _ => exact Finding.keptBy_of_blocked (.unknownForm (.foreign text)) _
    | inside form each =>
      -- Hints of one form make their checks in step, each kept by the induction.
      rcases hint.union_or_not with ⟨alternatives, rfl⟩ | notUnion
      · cases form with
        | @union _ alternatives' =>
          rw [check, check, checkMembers_eq_anyOf, checkMembers_eq_anyOf]
          apply Finding.KeptBy.map
          apply Finding.keptBy_anyOf
          rw [List.forall₂_map_left_iff, List.forall₂_map_right_iff]
          have both := (List.forall₂_and_left _ _).mpr ⟨members alternatives rfl, each⟩
          refine both.imp ?_
          rintro member member' ⟨kept, supplied⟩
          exact supplied.keptBy_unlessVacuous (kept supplied)
      · rw [check_eq_visits notUnion, check_eq_visits (form.ne_union notUnion)]
        have itself := verdict_checkItself_of_sameForm form each.length_eq classes value
        apply (Finding.KeptBy.of_verdict_eq itself).andThen
        apply Finding.keptBy_firstOf
        have visits := visits_of_sameForm form each (fun _ => .same) classes value
        have both := (List.forall₂_and_left _ _).mpr ⟨visited, visits⟩
        refine both.imp ?_
        rintro visit visit' ⟨visited, paired⟩
        have kept := visited paired.2.2
        exact paired.check Finding.KeptBy (fun words kept => kept.map words words) kept
          (paired.2.2.keptBy_unlessVacuous kept) value

end Supplied

end Hint

namespace Query

/-- An answer about a hint with a part of unknown form did not need that part: with any other hint
in its place there is an answer as well, and it is a cause if that was one. -/
theorem answer_of_unneeded (query : Query) (context : Hint.Context) (text : String)
    {answer : Option String}
    (answered : (query.about (context.fill (.foreign text))).cause = .ok answer) (hint : Hint) :
    ∃ answer', (query.about (context.fill hint)).cause = .ok answer' ∧
      (answer = none ↔ answer' = none) := by
  -- Behind the answer is a fit or a misfit, which is kept when the part is supplied.
  have kept := (context.supplied_fill text hint).keptBy_check query.classes query.value
  cases answer with
  | none =>
    have fits := kept.1 (cause_eq_none_iff.mp answered)
    exact ⟨none, cause_eq_none_iff.mpr fits, Iff.rfl⟩
  | some words =>
    obtain ⟨reason, misfit, _⟩ := cause_eq_some_iff.mp answered
    obtain ⟨reason', misfit'⟩ := kept.2 reason misfit
    exact ⟨some _, cause_eq_some_iff.mpr ⟨reason', misfit', rfl⟩, by simp⟩

/-- The first item of a stored tuple is at fault, so the hint for its second item is not needed, and
neither is any other that stands there, such as the one for any value. -/
theorem answer_of_unneeded_stored_tuple :
    let value : Value := .dict [(.str "a", .container .tuple [.str "x", .int 1])]
    let query : Query := ⟨value, .any, "", "f() parameter x", .initial, {}⟩
    let context : Hint.Context :=
      .mappingValue .dict (.instanceOf .str) (.tuple [.instanceOf .int] .hole [])
    let words := "dict \x7b'a': ('x', 1)\x7d key 'a' value tuple ('x', 1) index 0 item str 'x' not int"
    (query.about (context.fill (.foreign "<not a hint>"))).cause = .ok (some words) ∧
      ∃ answer, (query.about (context.fill .any)).cause = .ok answer ∧
        (some words = none ↔ answer = none) := by
  -- The first item gives the cause, before the unknown form is reached.
  intro value query context words
  have answered : (query.about (context.fill (.foreign "<not a hint>"))).cause =
      .ok (some words) := by decide +kernel
  exact ⟨answered, answer_of_unneeded query context "<not a hint>" answered .any⟩

end Query

end Misfit
