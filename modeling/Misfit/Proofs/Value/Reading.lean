import Misfit.Proofs.Text.Reading
import Misfit.Proofs.Value.Parts
import Misfit.Value.Text

/-! A value that is built from plain forms is told by its text. -/

namespace Misfit

namespace Value

/-- Whether a value is `None`, a truth value, an integer, a text, a byte sequence, a container or a
dictionary. -/
def PlainForm : Value → Prop
  | .float _ | .classObject _ | .object _ | .itemsObject _ _ | .entriesObject _ _ => False
  | _ => True

/-- A value is built from plain forms at every depth. -/
def Plain (value : Value) : Prop := Everywhere parts PlainForm value

/-- The characters of the text of a value. -/
def chars (classes : Hierarchy) (value : Value) : List Char := (value.text classes).toList

/-- The characters of an entry: those of its key, a colon and a space, and those of what is
stored. -/
def entryChars (classes : Hierarchy) (entry : Value × Value) : List Char :=
  entry.1.chars classes ++ ':' :: ' ' :: entry.2.chars classes

/-- The items of a container are listed between its brackets. -/
theorem chars_container (classes : Hierarchy) (kind : ContainerKind) (items : List Value) :
    (container kind items).chars classes = (kind.opening items.length).toList ++
      (listed (chars classes) items ++ (kind.closing items.length).toList) := by
  -- The texts of the items are those of each of them, and these are listed.
  rw [chars, text, itemTexts_eq_map, String.toList_append, String.toList_append,
    toList_intercalate, List.append_assoc]
  rfl

/-- The entries of a dictionary are listed between braces. -/
theorem chars_dict (classes : Hierarchy) (entries : List (Value × Value)) :
    (dict entries).chars classes = '\x7b' :: (listed (entryChars classes) entries ++ ['\x7d']) := by
  -- Each of these texts has the characters of an entry.
  have each : (fun entry : Value × Value =>
      (entry.1.text classes ++ ": " ++ entry.2.text classes).toList) = entryChars classes := by
    funext entry
    simp [entryChars, chars]
  rw [chars, text, entryTexts_eq_map, String.toList_append, String.toList_append,
    toList_intercalate, each]
  rfl

/-- How the text of a plain form starts: with a character, where a zero stands for all that numbers
start with. -/
inductive Leads : Value → Char → Prop where
  | none : Leads .none 'N'
  | false : Leads (.bool false) 'F'
  | true : Leads (.bool true) 'T'
  | int (number : Int) : Leads (.int number) '0'
  | str (content : String) : Leads (.str content) '\''
  | bytes (content : List UInt8) : Leads (.bytes content) 'b'
  | list (items : List Value) : Leads (.container .list items) '['
  | tuple (items : List Value) : Leads (.container .tuple items) '('
  | emptySet : Leads (.container .set []) 's'
  | set (item : Value) (items : List Value) : Leads (.container .set (item :: items)) '\x7b'
  | frozenset (items : List Value) : Leads (.container .frozenset items) 'f'
  | dict (entries : List (Value × Value)) : Leads (.dict entries) '\x7b'

/-- The character that a list starts with, or zero if a number may start so. -/
def leadOf (chars : List Char) : Char :=
  match chars with
  | [] => ' '
  | c :: _ => if c.isDigit || c == '-' then '0' else c

/-- Every plain form has a start. -/
theorem exists_leads {value : Value} (plain : value.PlainForm) : ∃ lead, value.Leads lead := by
  -- Only a set starts in two ways, one for the empty set and one for all others.
  cases value with
  | none => exact ⟨_, .none⟩
  | bool truth =>
    cases truth with
    | false => exact ⟨_, .false⟩
    | true => exact ⟨_, .true⟩
  | int number => exact ⟨_, .int number⟩
  | str content => exact ⟨_, .str content⟩
  | bytes content => exact ⟨_, .bytes content⟩
  | container kind items =>
    cases kind with
    | list => exact ⟨_, .list items⟩
    | tuple => exact ⟨_, .tuple items⟩
    | set =>
      cases items with
      | nil => exact ⟨_, .emptySet⟩
      | cons item items => exact ⟨_, .set item items⟩
    | frozenset => exact ⟨_, .frozenset items⟩
  | dict entries => exact ⟨_, .dict entries⟩
  | _ => cases plain

/-- The text of a plain form, whatever follows it, starts as its form does. -/
theorem Leads.leadOf {value : Value} {lead : Char} (leads : value.Leads lead) (classes : Hierarchy)
    (rest : List Char) : leadOf (value.chars classes ++ rest) = lead := by
  -- A number starts with a digit or a sign, and for all other forms the first character is fixed.
  cases leads with
  | int number =>
    cases number with
    | ofNat n =>
      -- All digits stand for one start.
      obtain ⟨c, later, digit, first⟩ := Decimal.digits_eq_cons n
      simp [chars, text, Decimal.ofInt, Decimal.ofNat, first, Value.leadOf, digit]
    | negSucc n => simp [chars, text, Decimal.ofInt, Value.leadOf]
  | str content => simp [chars, text, Quoted.text, Value.leadOf]
  | bytes content => simp [chars, text, Quoted.bytes, Value.leadOf]
  | frozenset items => cases items <;> simp [chars, text, ContainerKind.opening, Value.leadOf]
  | _ => simp [chars, text, ContainerKind.opening, Value.leadOf]

/-- The characters that close a list of values. -/
def closers : List Char := [']', ')', '\x7d', ',']

/-- No closing character is a digit, nor does a number start with one. -/
theorem leadOf_closer {c : Char} (closer : c ∈ closers) :
    c.isDigit = false ∧ ∀ rest, leadOf (c :: rest) = c := by
  -- There are four of them.
  simp only [closers, List.mem_cons, List.not_mem_nil, or_false] at closer
  rcases closer with rfl | rfl | rfl | rfl
  iterate 4 exact ⟨rfl, fun _ => rfl⟩

/-- What closes a list of plain values starts with no such value. -/
theorem apart_of_closer {classes : Hierarchy} {value : Value} (plain : value.PlainForm) {c : Char}
    (closer : c ∈ closers) (rest : List Char) : Apart (chars classes) (c :: rest) value := by
  intro more same
  obtain ⟨lead, leads⟩ := exists_leads plain
  -- The value would have a closing character for its lead, and no form has.
  have found : lead = c := by
    rw [← leads.leadOf classes more, same, (leadOf_closer closer).2]
  subst found
  cases leads <;> simp [closers] at closer

/-- A closing character closes the list of plain values before it, if it is no comma before a
space. -/
theorem closes_of_closer {classes : Hierarchy} {items : List Value}
    (plain : ∀ item ∈ items, item.PlainForm) {c : Char} (closer : c ∈ closers) {later : List Char}
    (noSpace : c = ',' → later.head? ≠ some ' ') :
    Closes Char.isDigit (chars classes) items (c :: later) where
  -- Such a character is no part of a number, no separator and no start of a value.
  ends := .cons (leadOf_closer closer).1 later
  noComma := by
    intro rest same
    obtain ⟨rfl, rfl⟩ := List.cons.inj same
    exact noSpace rfl rfl
  apart := fun item member => apart_of_closer (plain item member) closer later

/-- Every container is closed by such a character, and where that is the comma behind a lone item of
a tuple, no space follows it. -/
theorem closing_eq_cons (kind : ContainerKind) (count : Nat) :
    ∃ c later, (kind.closing count).toList = c :: later ∧ c ∈ closers ∧
      ∀ rest, c = ',' → (later ++ rest).head? ≠ some ' ' := by
  -- Two closings have a second character: that of a lone item, and that of a frozen set with items.
  fun_cases ContainerKind.closing kind count with
  | case1 => exact ⟨']', [], rfl, by decide, by simp⟩
  | case2 => exact ⟨',', [')'], rfl, by decide, by simp⟩
  | case5 => exact ⟨'\x7d', [], rfl, by decide, by simp⟩
  | case7 => exact ⟨'\x7d', [')'], rfl, by decide, by simp⟩
  | _ => exact ⟨')', [], rfl, by decide, by simp⟩

/-- Plain containers of a kind with the same opening are read back if their items are. -/
theorem readsBack_container {classes : Hierarchy} {kind : ContainerKind} {items others : List Value}
    (each : ∀ item ∈ items, ∀ other : Value, other.Plain →
      ReadsBack Char.isDigit (chars classes) item other)
    (plain : (container kind items).Plain) (plain' : (container kind others).Plain)
    {rest other : List Char} (opening : kind.opening items.length = kind.opening others.length)
    (same : (container kind items).chars classes ++ rest =
      (container kind others).chars classes ++ other) :
    container kind items = container kind others ∧ rest = other := by
  -- Each of the two closings, and what follows it, closes the items of the other container too.
  obtain ⟨c, later, closing, closer, noSpace⟩ := closing_eq_cons kind items.length
  obtain ⟨c', later', closing', closer', noSpace'⟩ := closing_eq_cons kind others.length
  have closes : Closes Char.isDigit (chars classes) others
      ((kind.closing items.length).toList ++ rest) := by
    rw [closing]
    exact closes_of_closer (fun item member => (plain'.part member).here) closer (noSpace rest)
  have closes' : Closes Char.isDigit (chars classes) items
      ((kind.closing others.length).toList ++ other) := by
    rw [closing']
    exact closes_of_closer (fun item member => (plain.part member).here) closer' (noSpace' other)
  rw [chars_container, chars_container, opening] at same
  simp only [List.append_assoc, List.append_cancel_left_eq] at same
  -- With the items the closings are the same, and so is what follows them.
  obtain ⟨rfl, closed⟩ := ReadsBack.listed
    (fun item member other member' => each item member other (plain'.part member')) rfl closes
    closes' same
  exact ⟨rfl, List.append_cancel_left closed⟩

/-- The text of a frozen set tells whether it is empty, which its opening depends on. -/
theorem opening_eq_of_chars_frozenset {classes : Hierarchy} {items others : List Value}
    {rest other : List Char} (same : (container .frozenset items).chars classes ++ rest =
      (container .frozenset others).chars classes ++ other) :
    ContainerKind.opening .frozenset items.length =
      ContainerKind.opening .frozenset others.length := by
  -- Behind the parenthesis that opens both, an empty one is closed and another has a brace.
  rw [chars_container, chars_container] at same
  cases items with
  | nil =>
    cases others with
    | nil => rfl
    | cons => simp [ContainerKind.opening, ContainerKind.closing, listed] at same
  | cons =>
    cases others with
    | nil => simp [ContainerKind.opening, ContainerKind.closing, listed] at same
    | cons => rfl

/-- Entries are read back if their keys and what is stored under them are. -/
theorem readsBack_entry {classes : Hierarchy} {entry other : Value × Value}
    (key : ReadsBack Char.isDigit (chars classes) entry.1 other.1)
    (stored : ReadsBack Char.isDigit (chars classes) entry.2 other.2) :
    ReadsBack Char.isDigit (entryChars classes) entry other := by
  intro rest rest' ends ends' same
  -- The colon ends the key, and what follows the entry ends what is stored.
  simp only [entryChars, List.append_assoc, List.cons_append] at same
  obtain ⟨keys, same⟩ := key (.cons rfl _) (.cons rfl _) same
  obtain ⟨values, following⟩ := stored ends ends' (List.cons.inj (List.cons.inj same).2).2
  exact ⟨Prod.ext keys values, following⟩

/-- The closing brace closes the list of entries before it, if their keys are plain. -/
theorem closes_brace {classes : Hierarchy} {entries : List (Value × Value)}
    (plain : ∀ entry ∈ entries, entry.1.PlainForm) (later : List Char) :
    Closes Char.isDigit (entryChars classes) entries ('\x7d' :: later) where
  ends := .cons rfl later
  noComma := by simp
  apart := by
    -- An entry starts with its key.
    intro entry member rest
    rw [entryChars, List.append_assoc]
    exact apart_of_closer (plain entry member) (by decide) later _

/-- The key and the stored value of an entry are parts of a dictionary. -/
theorem mem_parts_of_mem_entries {entries : List (Value × Value)} {entry : Value × Value}
    (member : entry ∈ entries) :
    entry.1 ∈ (dict entries).parts ∧ entry.2 ∈ (dict entries).parts :=
  -- Parts of a dictionary are gathered entry by entry.
  ⟨List.mem_flatMap.mpr ⟨entry, member, by simp⟩, List.mem_flatMap.mpr ⟨entry, member, by simp⟩⟩

/-- Plain dictionaries are read back if their keys and stored values are. -/
theorem readsBack_dict {classes : Hierarchy} {entries others : List (Value × Value)}
    (each : ∀ part ∈ (dict entries).parts, ∀ other : Value, other.Plain →
      ReadsBack Char.isDigit (chars classes) part other)
    (plain : (dict entries).Plain) (plain' : (dict others).Plain) {rest other : List Char}
    (same : (dict entries).chars classes ++ rest = (dict others).chars classes ++ other) :
    dict entries = dict others ∧ rest = other := by
  -- Both lists of entries are closed by a brace, and each entry is told by its key and its value.
  have keys : ∀ {entries : List (Value × Value)}, (dict entries).Plain →
      ∀ entry ∈ entries, entry.1.PlainForm :=
    fun plain entry member => (everywhere_entry plain member).1.here
  have entry_by_entry : ∀ entry ∈ entries, ∀ other ∈ others,
      ReadsBack Char.isDigit (entryChars classes) entry other := by
    intro entry member other member'
    obtain ⟨keyPart, storedPart⟩ := mem_parts_of_mem_entries member
    obtain ⟨keyPlain, storedPlain⟩ := everywhere_entry plain' member'
    exact readsBack_entry (each _ keyPart _ keyPlain) (each _ storedPart _ storedPlain)
  -- The opening braces are the same, and so are the closing ones behind the entries.
  rw [chars_dict, chars_dict] at same
  simp only [List.cons_append, List.append_assoc, List.nil_append, List.cons.injEq, true_and]
    at same
  obtain ⟨rfl, closed⟩ := ReadsBack.listed entry_by_entry rfl (closes_brace (keys plain') rest)
    (closes_brace (keys plain) other) same
  exact ⟨rfl, (List.cons.inj closed).2⟩

/-- A set that is not empty is not written as a dictionary, if its first item is told from the first
key. -/
theorem chars_set_ne_dict {classes : Hierarchy} {item : Value} {items : List Value}
    {entries : List (Value × Value)} (plain : item.PlainForm)
    (first : ∀ entry ∈ entries, ReadsBack Char.isDigit (chars classes) item entry.1)
    (rest other : List Char) :
    (container .set (item :: items)).chars classes ++ rest ≠
      (dict entries).chars classes ++ other := by
  intro same
  -- The braces are the same, so the first item and the first key start alike.
  have set : (container .set (item :: items)).chars classes ++ rest =
      '\x7b' :: (item.chars classes ++
        (items.flatMap (laterItem (chars classes)) ++ '\x7d' :: rest)) := by
    rw [chars_container]
    simp [ContainerKind.opening, ContainerKind.closing, listed]
  rw [set, chars_dict] at same
  cases entries with
  | nil =>
    -- The first item would start with the closing brace.
    exact apart_of_closer plain (by decide) _ _ (List.cons.inj same).2
  | cons entry entries =>
    -- Behind the first item there is a comma or the closing brace, and behind the key a colon.
    simp only [listed, entryChars, List.cons_append, List.append_assoc, List.cons.injEq, true_and]
      at same
    have ends : Ends Char.isDigit
        (items.flatMap (laterItem (chars classes)) ++ '\x7d' :: rest) :=
      ends_flatMap (fun _ _ => .cons rfl _) items (.cons rfl _)
    obtain ⟨_, following⟩ := first entry (by simp) ends (.cons rfl _) same
    cases items with
    | nil => cases following
    | cons second items => cases following

/-- Texts that agree, with whatever follows them, are of plain forms with one start. -/
theorem exists_leads_both {classes : Hierarchy} {a b : Value} (plain : a.PlainForm)
    (plain' : b.PlainForm) {rest other : List Char}
    (same : a.chars classes ++ rest = b.chars classes ++ other) :
    ∃ lead, a.Leads lead ∧ b.Leads lead := by
  obtain ⟨lead, leads⟩ := exists_leads plain
  obtain ⟨lead', leads'⟩ := exists_leads plain'
  -- The start of a form is what its text starts with.
  have lead_eq : lead = lead' := by
    rw [← leads.leadOf classes rest, same, leads'.leadOf classes other]
  exact ⟨lead, leads, lead_eq ▸ leads'⟩

/-- An integer is read back from what starts like a number. -/
theorem readsBack_int {classes : Hierarchy} (number : Int) {b : Value} (leads : b.Leads '0') :
    ReadsBack Char.isDigit (chars classes) (.int number) b := by
  intro rest other ends ends' same
  -- Integers are the only plain numbers.
  cases leads with
  | int other =>
    obtain ⟨rfl, following⟩ := Decimal.readsBack_ofInt _ _ ends ends' same
    exact ⟨rfl, following⟩

/-- A text is read back from what starts with a quote. -/
theorem readsBack_str {classes : Hierarchy} (content : String) {b : Value} (leads : b.Leads '\'') :
    ReadsBack Char.isDigit (chars classes) (.str content) b := by
  intro rest other ends ends' same
  -- Nothing but a text starts so, and the closing quote is told from those inside.
  cases leads with
  | str other =>
    obtain ⟨rfl, following⟩ := Quoted.readsBack_text _ _ _ ends ends' same
    exact ⟨rfl, following⟩

/-- A byte sequence is read back from what starts with its mark. -/
theorem readsBack_bytes {classes : Hierarchy} (content : List UInt8) {b : Value}
    (leads : b.Leads 'b') : ReadsBack Char.isDigit (chars classes) (.bytes content) b := by
  intro rest other ends ends' same
  -- Nothing but a byte sequence starts so.
  cases leads with
  | bytes other =>
    obtain ⟨rfl, following⟩ := Quoted.readsBack_bytes _ _ _ ends ends' same
    exact ⟨rfl, following⟩

/-- A set that is not empty is read back from what starts with a brace. -/
theorem readsBack_set {classes : Hierarchy} {item b : Value} {items : List Value}
    (each : ∀ part ∈ item :: items, ∀ other : Value, other.Plain →
      ReadsBack Char.isDigit (chars classes) part other)
    (plain : (container .set (item :: items)).Plain) (plain' : b.Plain)
    (leads : b.Leads '\x7b') :
    ReadsBack Char.isDigit (chars classes) (container .set (item :: items)) b := by
  intro rest other _ _ same
  cases leads with
  | set other others => exact readsBack_container each plain plain' rfl same
  | dict entries =>
    -- Both start with a brace, and are told apart behind the first item and the first key.
    have first : ∀ entry ∈ entries, ReadsBack Char.isDigit (chars classes) item entry.1 := by
      intro entry member
      exact each item (by simp) entry.1 (everywhere_entry plain' member).1
    have itemForm : item.PlainForm := (plain.part (by simp [parts])).here
    exact absurd same (chars_set_ne_dict itemForm first rest other)

/-- A dictionary is read back from what starts with a brace. -/
theorem readsBack_dict_of_leads {classes : Hierarchy} {b : Value}
    {entries : List (Value × Value)}
    (each : ∀ part ∈ (dict entries).parts, ∀ other : Value, other.Plain →
      ReadsBack Char.isDigit (chars classes) part other)
    (plain : (dict entries).Plain) (plain' : b.Plain) (leads : b.Leads '\x7b') :
    ReadsBack Char.isDigit (chars classes) (dict entries) b := by
  intro rest other _ _ same
  cases leads with
  | dict others => exact readsBack_dict each plain plain' same
  | set item items =>
    -- As for a set beside a dictionary, but what is known is about the parts of the dictionary.
    have itemPlain : item.Plain := plain'.part (by simp [parts])
    have first : ∀ entry ∈ entries, ReadsBack Char.isDigit (chars classes) item entry.1 := by
      intro entry member
      exact (each entry.1 (mem_parts_of_mem_entries member).1 item itemPlain).symm
    exact absurd same.symm (chars_set_ne_dict itemPlain.here first other rest)

/-- A plain value is read back from its text, if no digit follows. -/
theorem readsBack_of_plain {classes : Hierarchy} {a : Value} (plain : a.Plain) :
    ∀ b : Value, b.Plain → ReadsBack Char.isDigit (chars classes) a b := by
  -- By induction on the first value, whose parts are read back from the text of any plain value.
  induction plain with
  | @intro a here below ih =>
    intro b plain' rest other ends ends' same
    have plain : a.Plain := .intro here below
    -- Both texts have one start, and that leaves one form for the other value, or two.
    obtain ⟨lead, leads, leads'⟩ := exists_leads_both here plain'.here same
    cases leads with
    | none | false | true | emptySet =>
      cases leads'
      exact ⟨rfl, List.append_cancel_left same⟩
    | int number => exact readsBack_int number leads' ends ends' same
    | str content => exact readsBack_str content leads' ends ends' same
    | bytes content => exact readsBack_bytes content leads' ends ends' same
    | list items | tuple items =>
      -- The opening bracket does not depend on the items.
      cases leads'
      exact readsBack_container ih plain plain' rfl same
    | frozenset items =>
      cases leads' with
      | frozenset others =>
        exact readsBack_container ih plain plain' (opening_eq_of_chars_frozenset same) same
    | set item items => exact readsBack_set ih plain plain' leads' ends ends' same
    | dict entries => exact readsBack_dict_of_leads ih plain plain' leads' ends ends' same

/-- Plain values have the same text exactly if they are the same value. -/
theorem text_inj_of_plain (classes : Hierarchy) {a b : Value} (plain : a.Plain) (plain' : b.Plain) :
    a.text classes = b.text classes ↔ a = b := by
  -- One text is read back as one value, with nothing behind it.
  constructor
  · intro same
    have ends : Ends Char.isDigit ([] : List Char) := by simp [Ends]
    have chars : a.chars classes ++ [] = b.chars classes ++ [] := by rw [chars, same, chars]
    exact (readsBack_of_plain plain b plain' ends ends chars).1
  · rintro rfl
    rfl

/-- A text with a quote and a comma inside is not taken for two, nor a set for a dictionary. -/
theorem text_inj_of_plain_nested :
    let one : Value := .container .set [.container .tuple [.str "a', 'b", .bytes [39, 255]]]
    let two : Value :=
      .dict [(.container .tuple [.str "a", .str "b"], .container .frozenset [.int (-1), .none])]
    one.Plain ∧ two.Plain ∧
      one.text .initial = "\x7b('a\\', \\'b', b'\\'\\xff')\x7d" ∧
      two.text .initial = "\x7b('a', 'b'): frozenset(\x7b-1, None\x7d)\x7d" ∧
      (one.text .initial = two.text .initial ↔ one = two) := by
  -- Both values are plain at every depth, from the inside to the outside.
  intro one two
  have none : Value.none.Plain := .leaf trivial rfl
  have str : ∀ content, (str content).Plain := fun content => .leaf trivial rfl
  have bytes : ∀ content, (bytes content).Plain := fun content => .leaf trivial rfl
  have int : ∀ number, (int number).Plain := fun number => .leaf trivial rfl
  have container : ∀ kind items, (∀ item ∈ items, item.Plain) → (container kind items).Plain :=
    fun kind items each => .intro trivial each
  have plain : one.Plain :=
    container _ _ (by simpa using container _ _ (by simp [str, bytes]))
  have key : (Value.container .tuple [.str "a", .str "b"]).Plain := container _ _ (by simp [str])
  have stored : (Value.container .frozenset [.int (-1), .none]).Plain :=
    container _ _ (by simp [int, none])
  have plain' : two.Plain := .intro trivial (by simpa [two, parts] using ⟨key, stored⟩)
  exact ⟨plain, plain', by decide +kernel, by decide +kernel,
    text_inj_of_plain .initial plain plain'⟩

end Value

end Misfit
