import Misfit.Proofs.PartByPart
import Misfit.Proofs.Value.Parts
import Misfit.Value.Equality

/-! Equality of values holds part by part; it is symmetric and transitive, though some values are
not equal to themselves. -/

namespace Misfit

namespace Binary64

/-- Equal numbers are numbers, and have the same bits unless both are zeros. -/
theorem beq_iff {f g : Binary64} :
    (f == g) = true ↔
      f.isNaN = false ∧ g.isNaN = false ∧
        (f.bits = g.bits ∨ f.isZero = true ∧ g.isZero = true) := by
  -- The test is read condition by condition.
  show (!f.isNaN && !g.isNaN && (f.bits == g.bits || (f.isZero && g.isZero))) = true ↔ _
  simp [and_assoc]

/-- Numeric equality is symmetric. -/
theorem beq_symm {f g : Binary64} (same : (f == g) = true) : (g == f) = true := by
  -- Every condition is about both numbers alike.
  obtain ⟨first, second, bits | zeros⟩ := beq_iff.mp same
  · exact beq_iff.mpr ⟨second, first, .inl bits.symm⟩
  · exact beq_iff.mpr ⟨second, first, .inr zeros.symm⟩

/-- Numeric equality is transitive. -/
theorem beq_trans {f g h : Binary64} (left : (f == g) = true) (right : (g == h) = true) :
    (f == h) = true := by
  obtain ⟨first, _, same⟩ := beq_iff.mp left
  obtain ⟨_, second, same'⟩ := beq_iff.mp right
  -- Being a zero depends on the bits alone.
  have zero : ∀ {f g : Binary64}, f.bits = g.bits → f.isZero = g.isZero := by
    intro f g bits
    cases f
    cases g
    cases bits
    rfl
  refine beq_iff.mpr ⟨first, second, ?_⟩
  -- All three have the same bits, or all three are zeros.
  rcases same with bits | zeros
  · rcases same' with bits' | zeros'
    · exact .inl (bits.trans bits')
    · exact .inr ⟨(zero bits).trans zeros'.1, zeros'.2⟩
  · rcases same' with bits' | zeros'
    · exact .inr ⟨zeros.1, (zero bits').symm.trans zeros.2⟩
    · exact .inr ⟨zeros.1, zeros'.2⟩

end Binary64

namespace Value

/-- Every part of a value is smaller than the value. -/
theorem sizeOf_part_lt {value part : Value} (member : part ∈ value.parts) :
    sizeOf part < sizeOf value := by
  -- A key or a stored value is smaller than its entry, and that is smaller than the entries.
  have ofEntries : ∀ {entries : List (Value × Value)}, part ∈ (dict entries).parts →
      sizeOf part < sizeOf entries := by
    intro entries member
    obtain ⟨⟨key, stored⟩, listed, either⟩ := List.mem_flatMap.mp member
    have smaller := List.sizeOf_lt_of_mem listed
    rw [Prod.mk.sizeOf_spec] at smaller
    simp only [List.mem_cons, List.not_mem_nil, or_false] at either
    rcases either with rfl | rfl
    · omega
    · omega
  cases value with
  -- An item is smaller than the items, and these are smaller than the value.
  | container kind items =>
    have smaller := List.sizeOf_lt_of_mem member
    simp only [parts] at smaller
    rw [container.sizeOf_spec]
    omega
  | itemsObject ref items =>
    have smaller := List.sizeOf_lt_of_mem member
    simp only [parts] at smaller
    rw [itemsObject.sizeOf_spec]
    omega
  | dict entries =>
    have smaller := ofEntries member
    rw [dict.sizeOf_spec]
    omega
  | entriesObject ref entries =>
    have smaller := ofEntries member
    rw [entriesObject.sizeOf_spec]
    omega
  | _ => simp [parts] at member

/-- Two values are equal apart from their parts, which need not even be as many. -/
inductive SameForm : Value → Value → Prop where
  | none : SameForm .none .none
  | bool {truth : Bool} : SameForm (.bool truth) (.bool truth)
  | int {number : Int} : SameForm (.int number) (.int number)
  | float {f g : Binary64} (equal : (f == g) = true) : SameForm (.float f) (.float g)
  | str {content : String} : SameForm (.str content) (.str content)
  | bytes {content : List UInt8} : SameForm (.bytes content) (.bytes content)
  | container {kind : ContainerKind} {items items' : List Value} :
      SameForm (.container kind items) (.container kind items')
  | dict {entries entries' : List (Value × Value)} : SameForm (.dict entries) (.dict entries')
  | classObject {ref : ClassRef} : SameForm (.classObject ref) (.classObject ref)
  | object {ref : ClassRef} : SameForm (.object ref) (.object ref)
  | itemsObject {ref : ClassRef} {items items' : List Value} :
      SameForm (.itemsObject ref items) (.itemsObject ref items')
  | entriesObject {ref : ClassRef} {entries entries' : List (Value × Value)} :
      SameForm (.entriesObject ref entries) (.entriesObject ref entries')

/-- Values of one form have one class. -/
theorem SameForm.classRef_eq {value other : Value} (same : SameForm value other) :
    value.classRef = other.classRef := by
  -- The class of a value depends on its form alone.
  cases same <;> rfl

/-- Lists of values are equal exactly if their values are, one by one. -/
theorem equalItems_iff {items items' : List Value} :
    equalItems items items' = true ↔
      List.Forall₂ (fun item item' => equal item item' = true) items items' := by
  -- The comparison uses up both lists in step.
  induction items generalizing items' with
  | nil => cases items' <;> simp [equalItems]
  | cons item rest ih => cases items' <;> simp [equalItems, ih]

/-- Lists of entries are equal exactly if their keys and stored values are, one by one. -/
theorem equalEntries_iff {entries entries' : List (Value × Value)} :
    equalEntries entries entries' = true ↔
      List.Forall₂ (fun part part' => equal part part' = true)
        (entries.flatMap fun (key, stored) => [key, stored])
        (entries'.flatMap fun (key, stored) => [key, stored]) := by
  -- The comparison uses up both lists in step, a key and what is stored under it at a time.
  induction entries generalizing entries' with
  | nil => cases entries' <;> simp [equalEntries]
  | cons entry rest ih => cases entries' <;> simp [equalEntries, ih, and_assoc]

/-- Entries are related part by part exactly if their keys and their stored values are, one by
one. -/
theorem forall₂_entries_iff {related : Value → Value → Prop}
    {entries entries' : List (Value × Value)} :
    List.Forall₂ related (entries.flatMap fun (key, stored) => [key, stored])
        (entries'.flatMap fun (key, stored) => [key, stored]) ↔
      List.Forall₂ (fun entry entry' => related entry.1 entry'.1 ∧ related entry.2 entry'.2)
        entries entries' := by
  -- Both lists are used up in step, a key and what is stored under it at a time.
  induction entries generalizing entries' with
  | nil => cases entries' <;> simp
  | cons entry rest ih => cases entries' <;> simp [ih, and_assoc]

/-- Equal lists of entries are equally long. -/
theorem length_eq_of_equalEntries {entries entries' : List (Value × Value)}
    (same : equalEntries entries entries' = true) : entries.length = entries'.length :=
  -- They are related entry by entry.
  (forall₂_entries_iff.mp (equalEntries_iff.mp same)).length_eq

/-- Equal values have one form, and their parts are equal, one by one. -/
theorem sameForm_of_equal {value other : Value} (same : equal value other = true) :
    SameForm value other ∧
      List.Forall₂ (fun part part' => equal part part' = true) value.parts other.parts := by
  -- Each equation of the comparison but the last is about values of one form.
  fun_cases equal value other with
  | case1 => exact ⟨.none, .nil⟩
  | case2 | case3 | case5 | case6 | case9 | case10 =>
    -- Values without parts are compared as what they hold.
    simp only [equal, beq_iff_eq] at same
    subst same
    exact ⟨by constructor, .nil⟩
  | case4 f g => exact ⟨.float same, .nil⟩
  | case7 kind items kind' items' =>
    simp only [equal, Bool.and_eq_true, beq_iff_eq] at same
    obtain ⟨⟨rfl, _⟩, inside⟩ := same
    exact ⟨.container, equalItems_iff.mp inside⟩
  | case8 entries entries' =>
    simp only [equal, Bool.and_eq_true] at same
    exact ⟨.dict, equalEntries_iff.mp same.2⟩
  | case11 ref items ref' items' =>
    simp only [equal, Bool.and_eq_true, beq_iff_eq] at same
    obtain ⟨⟨rfl, _⟩, inside⟩ := same
    exact ⟨.itemsObject, equalItems_iff.mp inside⟩
  | case12 ref entries ref' entries' =>
    simp only [equal, Bool.and_eq_true, beq_iff_eq] at same
    obtain ⟨⟨rfl, _⟩, inside⟩ := same
    exact ⟨.entriesObject, equalEntries_iff.mp inside⟩
  | case13 => simp_all [equal]

/-- Values of one form are equal if their parts are, one by one. -/
theorem SameForm.equal {value other : Value} (form : SameForm value other)
    (inside : List.Forall₂ (fun part part' => part.equal part' = true) value.parts
      other.parts) : value.equal other = true := by
  -- Of two values of one form nothing but the parts is left to be compared.
  cases form with
  | none => rfl
  | bool | int | str | bytes | classObject | object => simp [Value.equal]
  | float same => exact same
  | container | itemsObject =>
    -- As many parts are compared on both sides.
    have lengths := inside.length_eq
    have items := equalItems_iff.mpr inside
    simp only [parts] at lengths items
    simp [Value.equal, lengths, items]
  | dict | entriesObject =>
    have entries := equalEntries_iff.mpr inside
    simp [Value.equal, length_eq_of_equalEntries entries, entries]

/-- Values are equal exactly if they have one form and their parts are equal, one by one. -/
theorem equal_iff {value other : Value} :
    equal value other = true ↔ SameForm value other ∧
      List.Forall₂ (fun part part' => equal part part' = true) value.parts other.parts :=
  -- The comparison asks for both, and for nothing else.
  ⟨sameForm_of_equal, fun ⟨form, inside⟩ => form.equal inside⟩

/-- Equality of values is a matter of their forms and of their parts, one by one. -/
theorem equal_partByPart :
    PartByPart parts SameForm fun value other => equal value other = true where
  -- The comparison looks at the outermost forms, and then at the parts.
  iff_parts _ _ := equal_iff
  smaller _ _ member := sizeOf_part_lt member

/-- Equality of values is symmetric. -/
theorem equal_symm {value other : Value} (same : equal value other = true) :
    equal other value = true := by
  -- Of all forms only numbers are compared by a test, which is symmetric.
  refine equal_partByPart.symm ?_ same
  intro value other form
  cases form with
  | float same => exact .float (Binary64.beq_symm same)
  | _ => constructor

/-- Equality of values is transitive. -/
theorem equal_trans {value between other : Value} (left : equal value between = true)
    (right : equal between other = true) : equal value other = true := by
  -- Of all forms only numbers are compared by a test, which is transitive.
  refine equal_partByPart.trans ?_ left right
  intro value between other form form'
  cases form with
  | float same =>
    cases form' with
    | float same' => exact .float (Binary64.beq_trans same same')
  | _ =>
    cases form'
    constructor

/-- What is said of visible contents holds of no contents where none can be seen. -/
theorem forall₂_getD {α : Type} {related : α → α → Prop} {visible visible' : Option (List α)}
    (same : Option.Rel (List.Forall₂ related) visible visible') :
    List.Forall₂ related (visible.getD []) (visible'.getD []) := by
  -- Either both can be seen, or there is nothing on either side.
  cases same with
  | some each => exact each
  | none => exact .nil

/-- Of equal values the visible items are equal, one by one, or none can be seen of either. -/
theorem items?_of_equal {value other : Value} (same : equal value other = true) :
    Option.Rel (List.Forall₂ fun item item' => equal item item' = true)
      value.items? other.items? := by
  obtain ⟨form, inside⟩ := equal_iff.mp same
  cases form with
  | str | bytes =>
    -- Characters and bytes are the same on both sides.
    apply Option.Rel.some
    rw [List.forall₂_map_left_iff, List.forall₂_map_right_iff, List.forall₂_same]
    intro _ _
    simp [equal]
  | container | itemsObject => exact .some inside
  | _ => exact .none

/-- Of equal values the visible keys and stored values are equal, entry by entry, or none can be
seen of either. -/
theorem pairs?_of_equal {value other : Value} (same : equal value other = true) :
    Option.Rel (List.Forall₂ fun entry entry' =>
      equal entry.1 entry'.1 = true ∧ equal entry.2 entry'.2 = true) value.pairs? other.pairs? := by
  -- Only two forms have entries to be seen, and these are their parts.
  obtain ⟨form, inside⟩ := equal_iff.mp same
  cases form with
  | dict | entriesObject => exact .some (forall₂_entries_iff.mp inside)
  | _ => exact .none

/-- A value is literally another exactly if the two are equal. -/
theorem isLiterally_eq (value named : Value) : value.isLiterally named = equal value named := by
  show (value.classRef == named.classRef && equal value named) = equal value named
  -- Equal values have one class, so asking for it asks for nothing more.
  cases same : equal value named with
  | false => rw [Bool.and_false]
  | true => simp [(equal_iff.mp same).1.classRef_eq]

/-- A value is literally another exactly if that is literally the value. -/
theorem isLiterally_comm (value other : Value) :
    value.isLiterally other = other.isLiterally value := by
  -- To be literally a value is to be equal to it.
  rw [isLiterally_eq, isLiterally_eq]
  exact Bool.eq_iff_iff.mpr ⟨equal_symm, equal_symm⟩

/-- Equal values are named by a literal alike. -/
theorem isLiterally_congr {named named' : Value} (same : equal named named' = true)
    (value : Value) : value.isLiterally named = value.isLiterally named' := by
  -- To be literally a value is to be equal to it, and equality is handed on both ways.
  rw [isLiterally_eq, isLiterally_eq]
  apply Bool.eq_iff_iff.mpr
  exact ⟨fun left => equal_trans left same, fun left => equal_trans left (equal_symm same)⟩

/-- Of equal values, one by one, either some name a value literally on both sides or none does. -/
theorem any_isLiterally_congr {named named' : List Value}
    (same : List.Forall₂ (fun one other => equal one other = true) named named') (value : Value) :
    named.any value.isLiterally = named'.any value.isLiterally := by
  -- Each of them names the value exactly if its counterpart does.
  induction same with
  | nil => rfl
  | cons head _ ih => rw [List.any_cons, List.any_cons, isLiterally_congr head, ih]

end Value

end Misfit
