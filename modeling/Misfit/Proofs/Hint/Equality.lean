import Misfit.Hint.Equality
import Misfit.Proofs.Finding.Verdict
import Misfit.Proofs.Hint.Accepts
import Misfit.Proofs.Value.Equality

/-! Equality of hints holds part by part, and checks under equal hints have one verdict. -/

namespace Misfit

namespace Hint

/-- Two hints are equal apart from their parts, which need not even be as many. -/
inductive SameForm : Hint → Hint → Prop where
  | any : SameForm .any .any
  | instanceOf {ref : ClassRef} : SameForm (.instanceOf ref) (.instanceOf ref)
  | union {members members' : List Hint} : SameForm (.union members) (.union members')
  | collection {form : CollectionForm} {item item' : Hint} :
      SameForm (.collection form item) (.collection form item')
  | tuple {items items' : List Hint} : SameForm (.tuple items) (.tuple items')
  | tupleOf {item item' : Hint} : SameForm (.tupleOf item) (.tupleOf item')
  | mapping {form : MappingForm} {key key' value value' : Hint} :
      SameForm (.mapping form key value) (.mapping form key' value')
  | generic {origin : ClassRef} {bases bases' : List Hint} :
      SameForm (.generic origin bases) (.generic origin bases')
  | subclassOf {ref : ClassRef} : SameForm (.subclassOf ref) (.subclassOf ref)
  | literal {values values' : List Value}
      (equal : List.Forall₂ (fun value value' => Value.equal value value' = true) values values') :
      SameForm (.literal values) (.literal values')
  | forwardRef {name : String} : SameForm (.forwardRef name) (.forwardRef name)
  | callable {parameters parameters' : List Hint} {result result' : Hint} :
      SameForm (.callable parameters result) (.callable parameters' result')
  | typeVar {name : String} : SameForm (.typeVar name) (.typeVar name)
  | foreign {text : String} : SameForm (.foreign text) (.foreign text)

/-- Lists of hints are equal exactly if their hints are, one by one. -/
theorem equalAll_iff {hints hints' : List Hint} :
    equalAll hints hints' = true ↔
      List.Forall₂ (fun hint hint' => equal hint hint' = true) hints hints' := by
  -- The comparison uses up both lists in step.
  induction hints generalizing hints' with
  | nil => cases hints' <;> simp [equalAll]
  | cons hint rest ih => cases hints' <;> simp [equalAll, ih]

/-- Lists that end with an item each are related if those two are and the items before are. -/
theorem forall₂_concat_iff {α : Type} {related : α → α → Prop} {items items' : List α}
    {last last' : α} :
    List.Forall₂ related (items ++ [last]) (items' ++ [last']) ↔
      List.Forall₂ related items items' ∧ related last last' := by
  -- Turned round, the lists start with those items.
  rw [← List.forall₂_reverse_iff, List.reverse_concat, List.reverse_concat, List.forall₂_cons,
    List.forall₂_reverse_iff, and_comm]

/-- Equal hints have one form, and their parts are equal, one by one. -/
theorem sameForm_of_equal {hint other : Hint} (same : equal hint other = true) :
    SameForm hint other ∧
      List.Forall₂ (fun part part' => equal part part' = true) hint.parts other.parts := by
  -- Each equation of the comparison but the last is about hints of one form.
  fun_cases equal hint other with
  | case1 => exact ⟨.any, .nil⟩
  | case2 | case9 | case11 | case13 | case14 =>
    -- Hints without parts are compared as what they hold.
    simp only [equal, beq_iff_eq] at same
    subst same
    exact ⟨by constructor, .nil⟩
  | case3 | case5 =>
    simp only [equal, Bool.and_eq_true] at same
    exact ⟨by constructor, equalAll_iff.mp same.2⟩
  | case4 form item form' item' =>
    simp only [equal, Bool.and_eq_true, beq_iff_eq] at same
    obtain ⟨rfl, same⟩ := same
    exact ⟨.collection, .cons same .nil⟩
  | case6 item item' => exact ⟨.tupleOf, .cons same .nil⟩
  | case7 form key value form' key' value' =>
    simp only [equal, Bool.and_eq_true, beq_iff_eq] at same
    obtain ⟨⟨rfl, keys⟩, values⟩ := same
    exact ⟨.mapping, .cons keys (.cons values .nil)⟩
  | case8 origin bases origin' bases' =>
    simp only [equal, Bool.and_eq_true, beq_iff_eq] at same
    obtain ⟨⟨rfl, _⟩, inside⟩ := same
    exact ⟨.generic, equalAll_iff.mp inside⟩
  | case10 values values' =>
    simp only [equal, Bool.and_eq_true] at same
    exact ⟨.literal (Value.equalItems_iff.mp same.2), .nil⟩
  | case12 parameters result parameters' result' =>
    -- The result is the last of the parts.
    simp only [equal, Bool.and_eq_true] at same
    obtain ⟨⟨_, inside⟩, results⟩ := same
    exact ⟨.callable, forall₂_concat_iff.mpr ⟨equalAll_iff.mp inside, results⟩⟩
  | case15 => simp_all [equal]

/-- Hints of one form are equal if their parts are, one by one. -/
theorem SameForm.equal {hint other : Hint} (form : SameForm hint other)
    (inside : List.Forall₂ (fun part part' => part.equal part' = true) hint.parts other.parts) :
    hint.equal other = true := by
  -- Of two hints of one form nothing but the parts is left to be compared.
  cases form with
  | any => rfl
  | instanceOf | subclassOf | forwardRef | typeVar | foreign => simp [Hint.equal]
  | union | tuple | generic =>
    -- As many parts are compared on both sides.
    have lengths := inside.length_eq
    have each := equalAll_iff.mpr inside
    simp only [parts] at lengths each
    simp [Hint.equal, lengths, each]
  | collection | tupleOf | mapping =>
    simp only [parts, List.forall₂_cons] at inside
    simp [Hint.equal, inside]
  | literal same => simp [Hint.equal, same.length_eq, Value.equalItems_iff.mpr same]
  | callable =>
    obtain ⟨parameters, result⟩ := forall₂_concat_iff.mp inside
    simp [Hint.equal, parameters.length_eq, equalAll_iff.mpr parameters, result]

/-- Hints are equal exactly if they have one form and their parts are equal, one by one. -/
theorem equal_iff {hint other : Hint} :
    equal hint other = true ↔ SameForm hint other ∧
      List.Forall₂ (fun part part' => equal part part' = true) hint.parts other.parts :=
  -- The comparison asks for both, and for nothing else.
  ⟨sameForm_of_equal, fun ⟨form, inside⟩ => form.equal inside⟩

/-- Equality of hints is a matter of their forms and of their parts, one by one. -/
theorem equal_partByPart :
    PartByPart parts SameForm fun hint other => equal hint other = true where
  -- The comparison looks at the outermost forms, and then at the parts.
  iff_parts _ _ := equal_iff
  smaller _ _ member := sizeOf_part_lt member

/-- Equality of hints is symmetric. -/
theorem equal_symm {hint other : Hint} (same : equal hint other = true) :
    equal other hint = true := by
  -- Forms are the same whichever comes first, and so is equality of named values.
  refine equal_partByPart.symm ?_ same
  intro hint other form
  cases form with
  | literal same => exact .literal (same.imp fun _ _ => Value.equal_symm).flip
  | _ => constructor

/-- Equality of hints is transitive. -/
theorem equal_trans {hint between other : Hint} (left : equal hint between = true)
    (right : equal between other = true) : equal hint other = true := by
  -- Of three hints of one form, only literals compare values, and these from one to the next.
  refine equal_partByPart.trans ?_ left right
  intro hint between other form form'
  cases form with
  | literal same =>
    cases form' with
    | literal same' =>
      refine .literal (forall₂_comp ?_ same same')
      -- Named values are equal one by one, and so across the hint between.
      exact fun _ _ _ _ left right => Value.equal_trans left right
  | _ =>
    cases form'
    constructor

/-- Equality of hints is symmetric and transitive, though some hints are not equal to themselves. -/
instance : PartialEquivBEq Hint where
  symm := equal_symm
  trans := equal_trans

/-- Of hints of one form either both are vacuous or none is. -/
theorem SameForm.isVacuous_eq {hint other : Hint} (form : SameForm hint other) :
    hint.isVacuous = other.isVacuous := by
  -- The form tells, together with the class of a plain class.
  cases form <;> rfl

/-- Of hints of one form either both are unions or none is. -/
theorem SameForm.ne_union {hint other : Hint} (form : SameForm hint other)
    (notUnion : ∀ members, hint ≠ .union members) (members : List Hint) :
    other ≠ .union members := by
  -- Only unions are of the form of a union.
  rintro rfl
  cases form
  exact notUnion _ rfl

/-- Lists made from one list in two ways are related one by one where the two ways are. -/
theorem forall₂_map_same {α β : Type} {related : β → β → Prop} {make make' : α → β}
    (items : List α) (each : ∀ item, related (make item) (make' item)) :
    List.Forall₂ related (items.map make) (items.map make') := by
  -- Each item stands beside itself in the list that both are made from.
  rw [List.forall₂_map_left_iff, List.forall₂_map_right_iff, List.forall₂_same]
  exact fun item _ => each item

/-- Lists that are related one by one stay so when paired with others that are. -/
theorem forall₂_zip {α β : Type} {related : α → α → Prop} {related' : β → β → Prop}
    {items items' : List α} {others others' : List β} (each : List.Forall₂ related items items')
    (each' : List.Forall₂ related' others others') :
    List.Forall₂ (fun pair pair' => related pair.1 pair'.1 ∧ related' pair.2 pair'.2)
      (items.zip others) (items'.zip others') := by
  -- The pairs end with the shorter list on both sides.
  induction each generalizing others others' with
  | nil => exact .nil
  | cons head _ ih =>
    cases each' with
    | nil => exact .nil
    | cons head' rest => exact .cons ⟨head, head'⟩ (ih rest)

/-- Related lists stay related one by one when paired with one list. -/
theorem forall₂_zip_same {α β : Type} {related : α → α → Prop} {items items' : List α}
    (each : List.Forall₂ related items items') (others : List β) :
    List.Forall₂ (fun pair pair' => related pair.1 pair'.1 ∧ pair.2 = pair'.2)
      (items.zip others) (items'.zip others) :=
  -- The list is related to itself by equality, item by item.
  forall₂_zip each (List.forall₂_same.mpr fun _ _ => rfl)

/-- Two visits take the same step to the same value, under related hints. -/
def Visit.Paired (related : Hint → Hint → Prop) (visit other : Visit) : Prop :=
  visit.step = other.step ∧ visit.value = other.value ∧ related visit.hint other.hint

/-- Two visits take the same step to the same value, under equal hints. -/
def Visit.Equal (visit other : Visit) : Prop :=
  Visit.Paired (fun hint other => hint.equal other = true) visit other

/-- Findings of paired visits are related like the findings under the two hints, if the relation
does not depend on how causes are worded. -/
theorem Visit.Paired.check {related : Hint → Hint → Prop} {classes : Hierarchy}
    {visit other : Visit} (paired : Visit.Paired related visit other)
    (relates : Finding Cause → Finding Cause → Prop)
    (reword : ∀ {found found' : Finding Cause} (words : Cause → Cause), relates found found' →
      relates (found.map words) (found'.map words))
    (checks : relates (visit.hint.check classes visit.value)
      (other.hint.check classes visit.value))
    (unlessVacuous : relates
      (Finding.unlessVacuous visit.hint fun _ => visit.hint.check classes visit.value)
      (Finding.unlessVacuous other.hint fun _ => other.hint.check classes visit.value))
    (whole : Value) : relates (visit.check classes whole) (other.check classes whole) := by
  -- Only a part is left out under a vacuous hint, and only its cause is put into other words.
  obtain ⟨step, hint, value⟩ := visit
  obtain ⟨step', hint', value'⟩ := other
  obtain ⟨rfl, rfl, _⟩ := paired
  cases step with
  | none => exact checks
  | some step =>
    simp only [Visit.check, Finding.inside, Finding.unlessVacuous_map]
    exact reword _ unlessVacuous

/-- Hints of one form visit the same parts of a value, one by one, under hints that are related like
their own parts, if every plain class is related to itself. -/
theorem visits_of_sameForm {related : Hint → Hint → Prop} {hint other : Hint}
    (form : SameForm hint other) (inside : List.Forall₂ related hint.parts other.parts)
    (plain : ∀ ref, related (.instanceOf ref) (.instanceOf ref)) (classes : Hierarchy)
    (value : Value) :
    List.Forall₂ (Visit.Paired related) (hint.visits classes value)
      (other.visits classes value) := by
  -- Hints of one form reach their visits through the same list.
  cases form with
  | collection | tupleOf =>
    simp only [parts, List.forall₂_cons] at inside
    exact forall₂_map_same _ fun _ => ⟨rfl, rfl, inside.1⟩
  | tuple =>
    simp only [parts] at inside
    simp only [visits, inside.length_eq]
    split
    · -- Each item stands beside a part of either hint, at the same position.
      rw [List.forall₂_map_left_iff, List.forall₂_map_right_iff]
      refine (forall₂_zip_same inside _).imp ?_
      rintro ⟨hint, part, position⟩ ⟨hint', _⟩ ⟨same, rfl⟩
      exact ⟨rfl, rfl, same⟩
    · exact .nil
  | mapping =>
    simp only [parts, List.forall₂_cons] at inside
    -- The same entries are visited, each for its key and its stored value.
    have entries : List.Forall₂ Eq (value.pairs?.getD []) (value.pairs?.getD []) :=
      List.forall₂_same.mpr fun _ _ => rfl
    refine List.rel_flatMap entries ?_
    rintro ⟨key, stored⟩ _ rfl
    exact .cons ⟨rfl, rfl, inside.1⟩ (.cons ⟨rfl, rfl, inside.2.1⟩ .nil)
  | generic =>
    simp only [parts] at inside
    -- The value itself is visited under each base.
    simp only [visits, List.forall₂_map_left_iff, List.forall₂_map_right_iff]
    exact inside.imp fun _ _ same => ⟨rfl, rfl, same⟩
  | @forwardRef name =>
    simp only [visits]
    split
    · -- Both names are one, and so lead to one class.
      next ref _ => exact .cons ⟨rfl, rfl, plain ref⟩ .nil
    · exact .nil
  | _ => exact .nil

/-- Equal hints visit the same parts of a value, one by one, under equal hints. -/
theorem visits_of_equal {hint other : Hint} (same : hint.equal other = true) (classes : Hierarchy)
    (value : Value) :
    List.Forall₂ Visit.Equal (hint.visits classes value) (other.visits classes value) := by
  -- Equal hints are of one form and have equal parts, and a class is equal to itself.
  obtain ⟨form, inside⟩ := equal_iff.mp same
  exact visits_of_sameForm form inside (by simp [equal]) classes value

/-- Hints of one form with as many parts ask the same of a value itself. -/
theorem verdict_checkItself_of_sameForm {hint other : Hint} (form : SameForm hint other)
    (lengths : hint.parts.length = other.parts.length) (classes : Hierarchy) (value : Value) :
    (hint.checkItself classes value).verdict Obstacle.kind =
      (other.checkItself classes value).verdict Obstacle.kind := by
  -- Parts play no part in this, except how many of them a tuple has.
  cases form with
  | @tuple hints hints' =>
    simp only [parts] at lengths
    simp only [checkItself, lengths]
    apply Finding.verdict_andThen_congr rfl
    cases value.items? with
    | none => rfl
    | some items =>
      -- The length that is asked for is told of in different causes, with one verdict.
      dsimp only
      split
      · rfl
      · split <;> split <;> rfl
  | @literal values values' each =>
    -- Equal named values let in the same values.
    have named := Value.any_isLiterally_congr each value
    simp only [checkItself, Value.checkLiteral, named]
    split <;> rfl
  | _ => rfl

/-- A visit made under equal hints with one verdict has one verdict. -/
theorem Visit.verdict_check_of_equal {ε : Type} {word : Obstacle → ε} {classes : Hierarchy}
    {visit other : Visit} (same : visit.Equal other)
    (verdict : (visit.hint.check classes visit.value).verdict word =
      (other.hint.check classes other.value).verdict word) (whole : Value) :
    (visit.check classes whole).verdict word = (other.check classes whole).verdict word := by
  -- Verdicts forget how causes are worded, so those of paired visits agree where the checks do.
  have together : visit.hint.isVacuous = other.hint.isVacuous :=
    (equal_iff.mp same.2.2).1.isVacuous_eq
  rw [← same.2.1] at verdict
  apply Visit.Paired.check same fun found found' => found.verdict word = found'.verdict word
  · intro found found' words same
    rwa [Finding.verdict_map, Finding.verdict_map]
  · exact verdict
  · exact Finding.verdict_unlessVacuous_congr together verdict

/-- Checks under equal hints have one verdict, up to the hints that obstacles show. -/
theorem verdict_check_of_equal {hint other : Hint} (same : hint.equal other = true)
    (classes : Hierarchy) (value : Value) :
    (hint.check classes value).verdict Obstacle.kind =
      (other.check classes value).verdict Obstacle.kind := by
  -- Members and visits come in pairs, and each pair has one verdict by the induction on visits.
  induction hint, value using visits_induction classes generalizing other with
  | step hint value visited members =>
    obtain ⟨form, inside⟩ := equal_iff.mp same
    rcases hint.union_or_not with ⟨alternatives, rfl⟩ | notUnion
    · cases form with
      | @union _ alternatives' =>
        simp only [check, checkMembers_eq_anyOf, Finding.verdict_map]
        -- The members are alternatives on both sides, each beside an equal one.
        apply Finding.verdict_anyOf_congr
        rw [List.forall₂_map_left_iff, List.forall₂_map_right_iff]
        have each := (List.forall₂_and_left _ _).mpr ⟨members alternatives rfl, inside⟩
        refine each.imp ?_
        rintro member member' ⟨congr, same⟩
        exact Finding.verdict_unlessVacuous_congr (equal_iff.mp same).1.isVacuous_eq (congr same)
    · rw [check_eq_visits notUnion, check_eq_visits (form.ne_union notUnion)]
      -- The values themselves are asked the same, and then visits are made in pairs.
      have itself := verdict_checkItself_of_sameForm form inside.length_eq classes value
      apply Finding.verdict_andThen_congr itself
      apply Finding.verdict_firstOf_congr
      have each := (List.forall₂_and_left _ _).mpr ⟨visited, visits_of_equal same classes value⟩
      refine each.imp ?_
      rintro visit visit' ⟨congr, same⟩
      apply Visit.verdict_check_of_equal same
      rw [← same.2.1]
      exact congr same.2.2

end Hint

end Misfit
