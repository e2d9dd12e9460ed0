import Misfit.Hint.Category
import Misfit.Proofs.Hint.Parts
import Misfit.Proofs.Value.Reading

/-! How hints that spell out what they are made of are written: a word, and behind most words a list
in brackets. -/

namespace Misfit

namespace Hint

/-- Whether a hint is of a form whose text says all of it: its classes are predefined and the values
it names are plain. A pair that starts with `None` is left out, as it is written like one that ends
so. -/
def SpelledForm : Hint → Prop
  | .instanceOf ref | .subclassOf ref => Hierarchy.initial.contains ref = true
  | .union members => ∀ second, members ≠ [.nothing, second]
  | .literal values => ∀ value ∈ values, value.Plain
  | .generic _ _ | .forwardRef _ | .typeVar _ | .foreign _ => False
  | _ => True

/-- A hint is spelled out at every depth. -/
def SpelledOut (hint : Hint) : Prop := Everywhere parts SpelledForm hint

/-- The characters of the text of a hint. -/
def chars (hint : Hint) : List Char := (hint.text .initial).toList

/-- Characters between brackets. -/
def bracketed (inside : List Char) : List Char := '[' :: (inside ++ [']'])

/-- Behind its opening bracket, what is bracketed is followed by the closing one. -/
theorem bracketed_append_inj {inside inside' rest rest' : List Char} :
    bracketed inside ++ rest = bracketed inside' ++ rest' ↔
      inside ++ ']' :: rest = inside' ++ ']' :: rest' := by
  -- The opening bracket is the same on both sides.
  simp [bracketed]

/-- What the text of a hint starts with: the name of a class, or a word for the form of the hint. -/
inductive Heading where
  | plainClass (ref : ClassRef)
  | optional
  | composite (category : Category)
deriving DecidableEq

namespace Heading

/-- The word of a heading. -/
def word : Heading → String
  | .plainClass ref => Hierarchy.initial.nameOf ref
  | .optional => "Optional"
  | .composite category => category.name

/-- Whether brackets follow the word. -/
def hasBrackets : Heading → Bool
  | .plainClass _ | .composite .any => false
  | _ => true

/-- Every heading over the predefined classes. -/
def all : List Heading :=
  Hierarchy.initial.refs.map plainClass ++ .optional :: Category.all.map composite

/-- A word, and whether brackets follow it, tell the heading. -/
theorem eq_of_word_eq : ∀ heading ∈ all, ∀ other ∈ all, heading.word = other.word →
    heading.hasBrackets = other.hasBrackets → heading = other := by
  -- Some classes share their names with forms, but nothing follows the name of a class.
  decide +kernel

/-- The word of a heading is not empty and has letters only. -/
theorem isAlpha_word : ∀ heading ∈ all,
    heading.word.toList ≠ [] ∧ ∀ c ∈ heading.word.toList, c.isAlpha = true := by
  -- Every word is looked through for a character that is no letter.
  have looked : ∀ heading ∈ all,
      heading.word.toList.isEmpty = false ∧ heading.word.toList.all Char.isAlpha = true := by
    decide +kernel
  intro heading listed
  simpa using looked heading listed

/-- The name of a predefined class is a heading. -/
theorem plainClass_mem_all {ref : ClassRef} (defined : Hierarchy.initial.contains ref = true) :
    plainClass ref ∈ all := by
  apply List.mem_append_left
  apply List.mem_map_of_mem
  -- The predefined classes are listed by their places.
  exact List.mem_map.mpr ⟨ref.index, by simpa [Hierarchy.contains] using defined, rfl⟩

/-- Every category is a heading. -/
theorem composite_mem_all (category : Category) : composite category ∈ all := by
  -- Categories are listed, with all kinds of collections and of mappings.
  have listed : category ∈ Category.all := by
    cases category with
    | collection form | mapping form => cases form <;> decide
    | _ => decide
  exact List.mem_append_right _ (List.mem_cons_of_mem _ (List.mem_map_of_mem listed))

end Heading

/-- What stands between commas in the brackets of a hint. -/
inductive Slot where
  | hint (hint : Hint)
  | parameters (hints : List Hint)
  /-- The mark of a tuple without items. -/
  | noItems
  /-- The mark of a tuple of any length. -/
  | anyLength

namespace Slot

/-- The hints in a slot. -/
def hints : Slot → List Hint
  | .hint item => [item]
  | .parameters items => items
  | _ => []

/-- The characters of a slot. -/
def chars : Slot → List Char
  | .hint item => item.chars
  | .parameters items => bracketed (listed Hint.chars items)
  | .noItems => ['(', ')']
  | .anyLength => ['.', '.', '.']

/-- How a slot starts, where one letter stands for all of them. -/
def lead : Slot → Char
  | .hint _ => 'a'
  | .parameters _ => '['
  | .noItems => '('
  | .anyLength => '.'

end Slot

/-- What follows the heading of a hint. -/
inductive Body where
  | nothing
  | name (ref : ClassRef)
  | values (values : List Value)
  | slots (slots : List Slot)

namespace Body

/-- The characters of a body. -/
def chars : Body → List Char
  | .nothing => []
  | .name ref => bracketed (Hierarchy.initial.nameOf ref).toList
  | .values items => bracketed (listed (Value.chars .initial) items)
  | .slots items => bracketed (listed Slot.chars items)

/-- Whether a body has brackets. -/
def isBracketed : Body → Bool
  | .nothing => false
  | _ => true

end Body

/-- Whether a hint asks for the value `None`. -/
theorem isInstanceOf_noneType_iff {hint : Hint} :
    hint.isInstanceOf .noneType = true ↔ hint = .nothing := by
  -- The value `None` is asked for through its class.
  cases hint <;> simp [isInstanceOf, nothing]

/-- How a hint is written: a heading and a body. -/
inductive Written : Hint → Heading → Body → Prop where
  | any : Written .any (.composite .any) .nothing
  | instanceOf {ref : ClassRef} (defined : Hierarchy.initial.contains ref = true) :
      Written (.instanceOf ref) (.plainClass ref) .nothing
  | optional {first : Hint} : Written (.union [first, .nothing]) .optional (.slots [.hint first])
  | union {members : List Hint} (first : ∀ second, members ≠ [.nothing, second])
      (second : ∀ first, members ≠ [first, .nothing]) :
      Written (.union members) (.composite .union) (.slots (members.map .hint))
  | collection {form : CollectionForm} {item : Hint} :
      Written (.collection form item) (.composite (.collection form)) (.slots [.hint item])
  | noItems : Written (.tuple []) (.composite .tuple) (.slots [.noItems])
  | tuple {item : Hint} {items : List Hint} :
      Written (.tuple (item :: items)) (.composite .tuple) (.slots ((item :: items).map .hint))
  | tupleOf {item : Hint} :
      Written (.tupleOf item) (.composite .tuple) (.slots [.hint item, .anyLength])
  | mapping {form : MappingForm} {key value : Hint} :
      Written (.mapping form key value) (.composite (.mapping form))
        (.slots [.hint key, .hint value])
  | subclassOf {ref : ClassRef} (defined : Hierarchy.initial.contains ref = true) :
      Written (.subclassOf ref) (.composite .subclass) (.name ref)
  | literal {values : List Value} (plain : ∀ value ∈ values, value.Plain) :
      Written (.literal values) (.composite .literal) (.values values)
  | callable {parameters : List Hint} {result : Hint} :
      Written (.callable parameters result) (.composite .callable)
        (.slots [.parameters parameters, .hint result])

/-- Every spelled form has a way to be written. -/
theorem exists_written {hint : Hint} (spelled : hint.SpelledForm) :
    ∃ heading body, Written hint heading body := by
  -- Only tuples and unions are written in two ways each.
  cases hint with
  | any => exact ⟨_, _, .any⟩
  | instanceOf ref => exact ⟨_, _, .instanceOf spelled⟩
  | union members =>
    -- A pair that ends with `None` is written as the other member made optional.
    by_cases pair : ∃ first, members = [first, .nothing]
    · obtain ⟨first, rfl⟩ := pair
      exact ⟨_, _, .optional⟩
    · exact ⟨_, _, .union spelled fun first same => pair ⟨first, same⟩⟩
  | collection form item => exact ⟨_, _, .collection⟩
  | tuple items =>
    cases items with
    | nil => exact ⟨_, _, .noItems⟩
    | cons item items => exact ⟨_, _, .tuple⟩
  | tupleOf item => exact ⟨_, _, .tupleOf⟩
  | mapping form key value => exact ⟨_, _, .mapping⟩
  | subclassOf ref => exact ⟨_, _, .subclassOf spelled⟩
  | literal values => exact ⟨_, _, .literal spelled⟩
  | callable parameters result => exact ⟨_, _, .callable⟩
  | _ => exact spelled.elim

/-- The texts of several hints with commas between them are listed. -/
theorem toList_texts (hints : List Hint) :
    (", ".intercalate (texts .initial hints)).toList = listed chars hints := by
  -- The text of each hint stands between the same separators.
  rw [texts_eq_map, toList_intercalate]
  rfl

/-- Hints that are listed as slots are listed. -/
theorem listed_slots (hints : List Hint) :
    listed Slot.chars (hints.map .hint) = listed chars hints := by
  -- A slot with a hint in it is written as the hint.
  cases hints with
  | nil => rfl
  | cons first later =>
    rw [List.map_cons, listed, listed, List.flatMap_map]
    rfl

/-- A union that is no pair with `None` is written with all of its members. -/
theorem unionText_eq {members : List Hint} (first : ∀ second, members ≠ [.nothing, second])
    (second : ∀ first, members ≠ [first, .nothing]) (texts : List String) :
    unionText members texts = "Union[" ++ ", ".intercalate texts ++ "]" := by
  -- Of the ways to write a pair, only the last is left.
  unfold unionText
  split
  · next one other oneText otherText =>
    -- Neither member of the pair is the one that a shorter spelling leaves out.
    have otherApart : ¬other.isInstanceOf .noneType = true := by
      rw [isInstanceOf_noneType_iff]
      rintro rfl
      exact second _ rfl
    have oneApart : ¬one.isInstanceOf .noneType = true := by
      rw [isInstanceOf_noneType_iff]
      rintro rfl
      exact first _ rfl
    rw [if_neg otherApart, if_neg oneApart]
    simp [String.append_assoc]
  · rfl

/-- The text of a hint is its heading followed by its body. -/
theorem Written.chars_eq {hint : Hint} {heading : Heading} {body : Body}
    (written : Written hint heading body) :
    hint.chars = heading.word.toList ++ body.chars := by
  -- Each form is written piece by piece, with its word as the first piece.
  cases written with
  | union first second =>
    simp [-String.toList_intercalate, chars, text, unionText_eq first second, toList_texts,
      listed_slots, Body.chars, bracketed, Heading.word, Category.name]
  | @literal values plain =>
    -- The values are listed with the same separators as hints are.
    have listed : (", ".intercalate (values.map (Value.text .initial))).toList =
        listed (Value.chars .initial) values := toList_intercalate _ _
    simp [-String.toList_intercalate, chars, text, listed, Body.chars, bracketed, Heading.word,
      Category.name]
  | @tuple item items =>
    simp [-String.toList_intercalate, -List.map_cons, chars, text, toList_texts, listed_slots,
      Body.chars, bracketed, Heading.word, Category.name]
  | _ =>
    simp [-String.toList_intercalate, chars, text, texts, unionText, isInstanceOf, nothing,
      toList_texts, Body.chars, bracketed, Slot.chars, listed, laterItem, Heading.word,
      Category.name]

/-- The heading of a hint is one over the predefined classes, and its brackets are those of the
body. -/
theorem Written.heading_mem_all {hint : Hint} {heading : Heading} {body : Body}
    (written : Written hint heading body) :
    heading ∈ Heading.all ∧ heading.hasBrackets = body.isBracketed := by
  -- All headings but two are words for categories.
  cases written with
  | instanceOf defined => exact ⟨Heading.plainClass_mem_all defined, rfl⟩
  | optional => exact ⟨by decide, rfl⟩
  | _ => exact ⟨Heading.composite_mem_all _, rfl⟩

/-- A heading and a body are those of one hint. -/
theorem Written.unique {hint other : Hint} {heading : Heading} {body body' : Body}
    (written : Written hint heading body) (written' : Written other heading body')
    (same : body = body') : hint = other := by
  -- Hints that are listed are told by their slots, among which there is no mark.
  have slot_inj : ∀ {hints others : List Hint}, hints.map Slot.hint = others.map Slot.hint →
      hints = others :=
    (List.map_inj_right fun _ _ => Slot.hint.inj).mp
  have no_mark : ∀ hints : List Hint, hints.map Slot.hint ≠ [.anyLength] := by
    intro hints
    cases hints <;> simp
  cases written with
  | union =>
    cases written' with
    | union => rw [slot_inj (Body.slots.inj same)]
  | tuple =>
    cases written' with
    | noItems => cases same
    | tuple => rw [slot_inj (Body.slots.inj same)]
    | tupleOf => exact absurd (List.cons.inj (Body.slots.inj same)).2 (no_mark _)
  | tupleOf =>
    cases written' with
    | noItems => cases same
    -- The mark stands behind the one hint, where a tuple would have another hint.
    | tuple => exact absurd (List.cons.inj (Body.slots.inj same)).2.symm (no_mark _)
    | tupleOf =>
      cases same
      rfl
  | _ =>
    cases written'
    all_goals cases same
    all_goals rfl

end Hint

end Misfit
