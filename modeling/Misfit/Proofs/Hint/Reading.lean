import Misfit.Proofs.Hint.Written

/-! A hint that spells out what it is made of is told by its text: by the word that comes first, and
by what stands in the brackets behind that word. -/

namespace Misfit

namespace Hint

/-- What can go on from a word: further letters, or the bracket behind it. -/
def goesOn (c : Char) : Bool := c.isAlpha || c == '['

/-- Behind the word of a hint there is no further letter. -/
theorem Body.ends_chars_append (body : Body) {rest : List Char} (ends : Ends goesOn rest) :
    Ends Char.isAlpha (body.chars ++ rest) := by
  -- Without brackets it is what follows the hint that ends the word.
  cases body with
  | nothing =>
    intro c first
    have other := ends c first
    simp only [goesOn, Bool.or_eq_false_iff] at other
    exact other.1
  | _ => exact .cons rfl _

/-- Behind the word of a hint there is a bracket exactly if the body has brackets. -/
theorem Body.isBracketed_iff (body : Body) {rest : List Char} (ends : Ends goesOn rest) :
    body.isBracketed = true ↔ (body.chars ++ rest).head? = some '[' := by
  -- Without brackets none can follow either.
  cases body with
  | nothing =>
    constructor
    · intro bracketed
      cases bracketed
    · intro first
      have other := ends '[' first
      cases other
  | _ => simp [isBracketed, chars, bracketed]

/-- A heading is read back from a text, if neither a letter nor a bracket follows. -/
theorem Written.heading_eq {hint other : Hint} {heading heading' : Heading} {body body' : Body}
    (written : Written hint heading body) (written' : Written other heading' body')
    {rest rest' : List Char} (ends : Ends goesOn rest) (ends' : Ends goesOn rest')
    (same : hint.chars ++ rest = other.chars ++ rest') :
    heading = heading' ∧ body.chars ++ rest = body'.chars ++ rest' := by
  obtain ⟨listed, brackets⟩ := written.heading_mem_all
  obtain ⟨listed', brackets'⟩ := written'.heading_mem_all
  -- The words are the runs of letters that both texts start with.
  rw [written.chars_eq, written'.chars_eq, List.append_assoc, List.append_assoc] at same
  obtain ⟨words, bodies⟩ := append_inj_of_run (Heading.isAlpha_word _ listed).2
    (Heading.isAlpha_word _ listed').2 (body.ends_chars_append ends)
    (body'.ends_chars_append ends') same
  -- A class may have the name of a form, but then no bracket follows it.
  have bracketed : heading.hasBrackets = heading'.hasBrackets := by
    rw [brackets, brackets', Bool.eq_iff_iff, body.isBracketed_iff ends,
      body'.isBracketed_iff ends', bodies]
  exact ⟨Heading.eq_of_word_eq _ listed _ listed' (String.toList_inj.mp words) bracketed, bodies⟩

/-- The character that a list starts with, or one letter for all of them. -/
def leadOf (chars : List Char) : Char :=
  match chars with
  | [] => ' '
  | c :: _ => if c.isAlpha then 'a' else c

/-- The text of a spelled form starts with a letter. -/
theorem SpelledForm.leadOf_chars {hint : Hint} (spelled : hint.SpelledForm) (rest : List Char) :
    leadOf (hint.chars ++ rest) = 'a' := by
  -- It is the first letter of the heading.
  obtain ⟨heading, body, written⟩ := exists_written spelled
  obtain ⟨nonempty, letters⟩ := Heading.isAlpha_word _ written.heading_mem_all.1
  obtain ⟨c, later, first⟩ := List.exists_cons_of_ne_nil nonempty
  have letter : c.isAlpha = true := letters c (by simp [first])
  simp [written.chars_eq, first, leadOf, letter]

/-- A slot starts as slots of its kind do. -/
theorem Slot.leadOf_chars {slot : Slot} (spelled : ∀ hint ∈ slot.hints, hint.SpelledForm)
    (rest : List Char) : leadOf (slot.chars ++ rest) = slot.lead := by
  -- A hint starts with its heading, and every other slot with a sign of its own.
  cases slot with
  | hint item => exact (spelled item (by simp [hints])).leadOf_chars rest
  | _ => rfl

/-- Things listed in brackets are read back if each of them is, and none starts with the bracket
that closes the list. -/
theorem eq_of_bracketed {α : Type} {write : α → List Char} {items others : List α}
    (each : ∀ item ∈ items, ∀ other ∈ others, ReadsBack goesOn write item other)
    (starts : ∀ item ∈ items, ∀ rest, leadOf (write item ++ rest) ≠ ']')
    (starts' : ∀ other ∈ others, ∀ rest, leadOf (write other ++ rest) ≠ ']')
    {rest rest' : List Char}
    (same : listed write items ++ ']' :: rest = listed write others ++ ']' :: rest') :
    items = others ∧ rest = rest' := by
  -- No list is continued by its closing bracket.
  have closes : ∀ {items : List α}, (∀ item ∈ items, ∀ rest, leadOf (write item ++ rest) ≠ ']') →
      ∀ rest, Closes goesOn write items (']' :: rest) := by
    intro items starts rest
    refine ⟨.cons rfl rest, by simp, ?_⟩
    intro item member more same
    exact starts item member more (by rw [same]; rfl)
  obtain ⟨rfl, closed⟩ := ReadsBack.listed each rfl (closes starts' rest) (closes starts rest') same
  exact ⟨rfl, (List.cons.inj closed).2⟩

/-- A slot is read back if the hints in it are. -/
theorem Slot.readsBack {slot other : Slot}
    (each : ∀ hint ∈ slot.hints, ∀ hint' ∈ other.hints, ReadsBack goesOn Hint.chars hint hint')
    (spelled : ∀ hint ∈ slot.hints, hint.SpelledForm)
    (spelled' : ∀ hint ∈ other.hints, hint.SpelledForm) :
    ReadsBack goesOn Slot.chars slot other := by
  intro rest rest' ends ends' same
  -- Slots of different kinds start differently.
  have lead : slot.lead = other.lead := by
    rw [← leadOf_chars spelled rest, same, leadOf_chars spelled' rest']
  cases slot with
  | hint item =>
    cases other with
    | hint item' =>
      obtain ⟨rfl, following⟩ := each item (by simp [hints]) item' (by simp [hints]) ends ends' same
      exact ⟨rfl, following⟩
    | _ => simp [Slot.lead] at lead
  | parameters items =>
    cases other with
    | parameters items' =>
      -- Parameters are hints, and hints start with letters.
      have starts : ∀ {items : List Hint}, (∀ item ∈ items, item.SpelledForm) →
          ∀ item ∈ items, ∀ rest, leadOf (item.chars ++ rest) ≠ ']' := by
        intro items spelled item member rest
        rw [(spelled item member).leadOf_chars]
        decide
      obtain ⟨rfl, following⟩ := eq_of_bracketed each (starts spelled) (starts spelled')
        (bracketed_append_inj.mp same)
      exact ⟨rfl, following⟩
    | _ => simp [Slot.lead] at lead
  -- The other two kinds of slots hold nothing that could differ.
  | noItems =>
    cases other with
    | noItems => exact ⟨rfl, List.append_cancel_left same⟩
    | _ => simp [Slot.lead] at lead
  | anyLength =>
    cases other with
    | anyLength => exact ⟨rfl, List.append_cancel_left same⟩
    | _ => simp [Slot.lead] at lead

/-- The hints in the slots of a body are parts of the hint. -/
theorem Written.mem_parts {hint : Hint} {heading : Heading} {slots : List Slot}
    (written : Written hint heading (.slots slots)) :
    ∀ slot ∈ slots, ∀ inner ∈ slot.hints, inner ∈ hint.parts := by
  -- Each form fills its slots with parts of its own.
  cases written <;> simp +contextual [Slot.hints, parts]

/-- A predefined class is read back from its name in brackets. -/
theorem eq_of_name_chars {ref other : ClassRef} (defined : Hierarchy.initial.contains ref = true)
    (defined' : Hierarchy.initial.contains other = true) {rest rest' : List Char}
    (same : (Body.name ref).chars ++ rest = (Body.name other).chars ++ rest') :
    ref = other ∧ rest = rest' := by
  have listed := Heading.plainClass_mem_all defined
  have listed' := Heading.plainClass_mem_all defined'
  -- The name is the run of letters behind the bracket.
  obtain ⟨names, closed⟩ := append_inj_of_run (Heading.isAlpha_word _ listed).2
    (Heading.isAlpha_word _ listed').2 (.cons rfl _) (.cons rfl _) (bracketed_append_inj.mp same)
  have headings := Heading.eq_of_word_eq _ listed _ listed' (String.toList_inj.mp names) rfl
  exact ⟨Heading.plainClass.inj headings, (List.cons.inj closed).2⟩

/-- Plain values are read back from the list of them in brackets. -/
theorem eq_of_values_chars {values others : List Value} (plain : ∀ value ∈ values, value.Plain)
    (plain' : ∀ value ∈ others, value.Plain) {rest rest' : List Char}
    (same : (Body.values values).chars ++ rest = (Body.values others).chars ++ rest') :
    values = others ∧ rest = rest' := by
  -- Values are read back if no digit follows, and no bracket is a digit.
  have closes : ∀ {values : List Value}, (∀ value ∈ values, value.Plain) → ∀ rest,
      Closes Char.isDigit (Value.chars .initial) values (']' :: rest) :=
    fun plain rest =>
      Value.closes_of_closer (fun value member => (plain value member).here) (by decide) (by simp)
  obtain ⟨rfl, closed⟩ := ReadsBack.listed
    (fun value member other member' =>
      Value.readsBack_of_plain (plain value member) other (plain' other member'))
    rfl (closes plain' rest) (closes plain rest') (bracketed_append_inj.mp same)
  exact ⟨rfl, (List.cons.inj closed).2⟩

/-- Slots are read back from the list of them in brackets if the hints in them are. -/
theorem eq_of_slots_chars {slots others : List Slot}
    (each : ∀ slot ∈ slots, ∀ other ∈ others, ∀ hint ∈ slot.hints, ∀ hint' ∈ other.hints,
      ReadsBack goesOn chars hint hint')
    (spelled : ∀ slot ∈ slots, ∀ hint ∈ slot.hints, hint.SpelledForm)
    (spelled' : ∀ slot ∈ others, ∀ hint ∈ slot.hints, hint.SpelledForm) {rest rest' : List Char}
    (same : (Body.slots slots).chars ++ rest = (Body.slots others).chars ++ rest') :
    slots = others ∧ rest = rest' := by
  -- No slot starts with the closing bracket, whatever its kind.
  have starts : ∀ {slots : List Slot}, (∀ slot ∈ slots, ∀ hint ∈ slot.hints, hint.SpelledForm) →
      ∀ slot ∈ slots, ∀ rest, leadOf (slot.chars ++ rest) ≠ ']' := by
    intro slots spelled slot member rest
    rw [Slot.leadOf_chars (spelled slot member)]
    cases slot <;> simp [Slot.lead]
  exact eq_of_bracketed
    (fun slot member other member' => Slot.readsBack (each slot member other member')
      (spelled slot member) (spelled' other member'))
    (starts spelled) (starts spelled') (bracketed_append_inj.mp same)

/-- Of two hints that are spelled out, with slots behind one heading, the slots are read back if the
parts are. -/
theorem Written.slots_eq {a b : Hint} {heading : Heading} {slots others : List Slot}
    (written : Written a heading (.slots slots)) (written' : Written b heading (.slots others))
    (spelled : a.SpelledOut) (spelled' : b.SpelledOut)
    (each : ∀ part ∈ a.parts, ∀ other : Hint, other.SpelledOut →
      ReadsBack goesOn chars part other) {rest rest' : List Char}
    (same : (Body.slots slots).chars ++ rest = (Body.slots others).chars ++ rest') :
    slots = others ∧ rest = rest' := by
  -- The hints in the slots of either body are parts of its hint.
  have part := written.mem_parts
  have part' := written'.mem_parts
  exact eq_of_slots_chars
    (fun slot member other member' hint inside hint' inside' =>
      each hint (part slot member hint inside) hint'
        (spelled'.part (part' other member' hint' inside')))
    (fun slot member hint inside => (spelled.part (part slot member hint inside)).here)
    (fun slot member hint inside => (spelled'.part (part' slot member hint inside)).here)
    same

/-- Of two hints that are spelled out, the bodies behind one heading are read back if the parts
are. -/
theorem Written.body_eq {a b : Hint} {heading : Heading} {body body' : Body}
    (written : Written a heading body) (written' : Written b heading body')
    (spelled : a.SpelledOut) (spelled' : b.SpelledOut)
    (each : ∀ part ∈ a.parts, ∀ other : Hint, other.SpelledOut →
      ReadsBack goesOn chars part other) {rest rest' : List Char}
    (same : body.chars ++ rest = body'.chars ++ rest') : body = body' ∧ rest = rest' := by
  have slots : ∀ slots others, body = .slots slots → body' = .slots others →
      body = body' ∧ rest = rest' := by
    rintro slots others rfl rfl
    obtain ⟨rfl, closed⟩ := written.slots_eq written' spelled spelled' each same
    exact ⟨rfl, closed⟩
  -- One heading leaves one kind of body for both, and most kinds have slots.
  cases written with
  | any | instanceOf =>
    cases written'
    exact ⟨rfl, same⟩
  | subclassOf defined =>
    cases written' with
    | subclassOf defined' =>
      obtain ⟨rfl, closed⟩ := eq_of_name_chars defined defined' same
      exact ⟨rfl, closed⟩
  | literal plain =>
    cases written' with
    | literal plain' =>
      obtain ⟨rfl, closed⟩ := eq_of_values_chars plain plain' same
      exact ⟨rfl, closed⟩
  | _ =>
    cases written'
    all_goals exact slots _ _ rfl rfl

/-- A hint that is spelled out is read back from its text, if neither a letter nor a bracket
follows. -/
theorem readsBack_of_spelledOut {a : Hint} (spelled : a.SpelledOut) :
    ∀ b : Hint, b.SpelledOut → ReadsBack goesOn chars a b := by
  -- By induction on the first hint, whose parts are read back from the text of any other.
  induction spelled with
  | @intro a here below ih =>
    intro b spelled' rest rest' ends ends' same
    have spelled : a.SpelledOut := .intro here below
    obtain ⟨heading, body, written⟩ := exists_written here
    obtain ⟨heading', body', written'⟩ := exists_written spelled'.here
    -- The headings are read first, then the bodies, and both together make up the hint.
    obtain ⟨rfl, following⟩ := written.heading_eq written' ends ends' same
    obtain ⟨bodies, closed⟩ := written.body_eq written' spelled spelled' ih following
    exact ⟨written.unique written' bodies, closed⟩

/-- Over the predefined classes, hints that are spelled out have the same text exactly if they are
the same hint. -/
theorem text_inj_of_spelledOut {a b : Hint} (spelled : a.SpelledOut) (spelled' : b.SpelledOut) :
    a.text .initial = b.text .initial ↔ a = b := by
  constructor
  · intro same
    -- Nothing follows either text.
    have ends : Ends goesOn ([] : List Char) := by simp [Ends]
    have chars : a.chars ++ [] = b.chars ++ [] := by rw [chars, same, chars]
    exact (readsBack_of_spelledOut spelled b spelled' ends ends chars).1
  · rintro rfl
    rfl

/-- A class and a form of one name, a pair with `None`, a tuple without items, and a literal with
brackets and commas in its text. -/
theorem text_inj_of_spelledOut_nested :
    let one : Hint := .callable
      [.instanceOf .sequence, .union [.collection .sequence (.tupleOf .any), .nothing]] (.tuple [])
    let two : Hint := .callable [.literal [.str "], [", .none]] (.tuple [.subclassOf .sequence])
    one.SpelledOut ∧ two.SpelledOut ∧
      one.text .initial = "Callable[[Sequence, Optional[Sequence[Tuple[Any, ...]]]], Tuple[()]]" ∧
      two.text .initial = "Callable[[Literal['], [', None]], Tuple[Type[Sequence]]]" ∧
      (one.text .initial = two.text .initial ↔ one = two) := by
  -- Both hints are spelled out at every depth, from the inside to the outside.
  intro one two
  have class_ : (Hint.instanceOf .sequence).SpelledOut := .leaf rfl rfl
  have nothing : Hint.nothing.SpelledOut := .leaf rfl rfl
  have any : Hint.any.SpelledOut := .leaf trivial rfl
  have tupleOf : (Hint.tupleOf .any).SpelledOut :=
    .intro trivial (by simpa [parts, SpelledOut] using any)
  have items : (Hint.collection .sequence (.tupleOf .any)).SpelledOut :=
    .intro trivial (by simpa [parts, SpelledOut] using tupleOf)
  have optional : (Hint.union [.collection .sequence (.tupleOf .any), .nothing]).SpelledOut :=
    .intro (by simp [SpelledForm, Hint.nothing]) (by simpa [parts] using ⟨items, nothing⟩)
  have empty : (Hint.tuple []).SpelledOut := .leaf trivial rfl
  have spelled : one.SpelledOut :=
    .intro trivial (by simpa [one, parts] using ⟨class_, optional, empty⟩)
  have quoted : (Value.str "], [").Plain := .leaf trivial rfl
  have none : Value.none.Plain := .leaf trivial rfl
  have literal : (Hint.literal [.str "], [", .none]).SpelledOut :=
    .leaf (by simpa [SpelledForm] using ⟨quoted, none⟩) rfl
  have subclass : (Hint.subclassOf .sequence).SpelledOut := .leaf rfl rfl
  have tuple : (Hint.tuple [.subclassOf .sequence]).SpelledOut :=
    .intro trivial (by simpa [parts, SpelledOut] using subclass)
  have spelled' : two.SpelledOut :=
    .intro trivial (by simpa [two, parts] using ⟨literal, tuple⟩)
  exact ⟨spelled, spelled', by decide +kernel, by decide +kernel,
    text_inj_of_spelledOut spelled spelled'⟩

end Hint

end Misfit
