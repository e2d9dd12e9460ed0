import Misfit.Proofs.Text.Grown
import Misfit.Proofs.Value.Excerpt

/-! An excerpt looks at no more nodes of a value than its budget has bytes. -/

namespace Misfit

namespace Value

mutual

/-- How many nodes a value has: itself, and all those of its parts. A text is a single node, and so
is a byte sequence. -/
def nodes : Value → Nat
  | .container _ items => 1 + itemNodes items
  | .dict entries => 1 + entryNodes entries
  | .itemsObject _ items => 1 + itemNodes items
  | .entriesObject _ entries => 1 + entryNodes entries
  | _ => 1

/-- How many nodes several values have. -/
def itemNodes : List Value → Nat
  | [] => 0
  | item :: rest => nodes item + itemNodes rest

/-- How many nodes the keys and the stored values of several entries have. -/
def entryNodes : List (Value × Value) → Nat
  | [] => 0
  | (key, stored) :: rest => nodes key + nodes stored + entryNodes rest

end

mutual

/-- The value with another one in the place of the node of some number. Nodes are numbered from
zero, a value before its parts, and all nodes of a part before those of the next one. -/
def replaceAt (value : Value) (index : Nat) (new : Value) : Value :=
  match index, value with
  | 0, _ => new
  | below + 1, .container kind items => .container kind (replaceItems items below new)
  | below + 1, .dict entries => .dict (replaceEntries entries below new)
  | below + 1, .itemsObject ref items => .itemsObject ref (replaceItems items below new)
  | below + 1, .entriesObject ref entries => .entriesObject ref (replaceEntries entries below new)
  | _ + 1, leaf => leaf

/-- Values in a row with another one in the place of the node of some number. -/
def replaceItems (items : List Value) (index : Nat) (new : Value) : List Value :=
  match items with
  | [] => []
  | item :: rest =>
    if index < item.nodes then replaceAt item index new :: rest
    else item :: replaceItems rest (index - item.nodes) new

/-- Entries in a row with another value in the place of the node of some number; of each entry the
key comes first. -/
def replaceEntries (entries : List (Value × Value)) (index : Nat) (new : Value) :
    List (Value × Value) :=
  match entries with
  | [] => []
  | (key, stored) :: rest =>
    if index < key.nodes then (replaceAt key index new, stored) :: rest
    else if index - key.nodes < stored.nodes then
      (key, replaceAt stored (index - key.nodes) new) :: rest
    else (key, stored) :: replaceEntries rest (index - key.nodes - stored.nodes) new

end

/-- Replacing a node leaves the number of items as it is. -/
theorem length_replaceItems (items : List Value) (index : Nat) (new : Value) :
    (replaceItems items index new).length = items.length := by
  -- Whether the node is in the first item or later, one item is put in the place of one.
  induction items generalizing index with
  | nil => rfl
  | cons item rest ih =>
    rw [replaceItems]
    split
    · rfl
    · rw [List.length_cons, List.length_cons, ih]

end Value

/-- Something stands before the items of every container. -/
theorem ContainerKind.opening_size_pos (kind : ContainerKind) (count : Nat) :
    1 ≤ (kind.opening count).utf8ByteSize := by
  -- There is one bracket or more in each of them.
  unfold opening
  split <;> decide

namespace Decimal

/-- Every natural number has a digit. -/
theorem ofNat_size_pos (n : Nat) : 1 ≤ (ofNat n).utf8ByteSize := by
  -- The digits of a number are never none.
  apply Nat.pos_of_ne_zero
  simp [ofNat, digits, String.utf8ByteSize_eq_zero_iff]

/-- Every integer has a digit. -/
theorem ofInt_size_pos (number : Int) : 1 ≤ (ofInt number).utf8ByteSize := by
  -- A minus sign only adds to the digits.
  cases number with
  | ofNat n => exact ofNat_size_pos n
  | negSucc n =>
    have digits := ofNat_size_pos (n + 1)
    rw [ofInt, String.utf8ByteSize_append]
    omega

end Decimal

/-- Every decimal has a digit. -/
theorem ShortDecimal.positional_size_pos (d : ShortDecimal) : 1 ≤ d.positional.utf8ByteSize := by
  -- The digits of the coefficient are written in full, whatever the exponent.
  apply Nat.pos_of_ne_zero
  unfold positional
  split <;> simp [Decimal.digits, String.utf8ByteSize_eq_zero_iff]

/-- Every floating-point number is written with some character. -/
theorem Binary64.text_size_pos (f : Binary64) : 1 ≤ f.text.utf8ByteSize := by
  rcases f.text_cases with same | ⟨unsigned, spelled, signed⟩
  · rw [same]
    decide
  · -- What has no name of its own has digits, whichever way they are written.
    have positive : 1 ≤ unsigned.utf8ByteSize := by
      cases spelled with
      | infinite => decide
      | whole n =>
        rw [String.utf8ByteSize_append]
        exact Nat.le_add_right_of_le (Decimal.ofNat_size_pos n)
      | decimal d => exact d.positional_size_pos
    rcases signed with same | same
    · rwa [same]
    · rw [same, String.utf8ByteSize_append]
      exact Nat.le_add_left_of_le positive

namespace Value

mutual

/-- A text to which a value is appended grows by a byte for each of its nodes. -/
theorem grown_appendText (classes : Hierarchy) (budget : Nat) (value : Value) (out : String) :
    Grown budget value.nodes out (appendText classes budget value out) := by
  have quote : 1 ≤ "'".utf8ByteSize := by decide
  have angle : 1 ≤ "<".utf8ByteSize := by decide
  unfold appendText
  split
  · next exceeded => exact .of_exceeded exceeded _
  · -- The byte of the value itself is in its opening, before any of its parts is looked at.
    cases value with
    | none => exact .append budget out (by decide)
    | bool truth => exact .append budget out (by cases truth <;> decide)
    | int number => exact .append budget out (Decimal.ofInt_size_pos number)
    | float number => exact .append budget out number.text_size_pos
    | str content =>
      -- A text is one node, for which its opening quote pays.
      exact ((Grown.append budget out quote).trans (grown_appendWithin budget _ _ _)).followed _
    | bytes content =>
      exact ((Grown.append budget out (by decide)).trans
        (grown_appendWithin budget _ _ _)).followed _
    | container kind items =>
      exact ((Grown.append budget out (kind.opening_size_pos _)).trans
        (grown_appendItems classes budget "" items _)).followed _
    | dict entries =>
      exact (Grown.append budget out (by decide)).trans
        (grown_appendEntries classes budget "" entries _)
    | classObject ref =>
      have opening : 1 ≤ "<class '".utf8ByteSize := by decide
      exact ((Grown.append budget out opening).followed _).followed _
    | object ref => exact ((Grown.append budget out angle).followed _).followed _
    -- The name of a class may be empty, but never the bracket behind it.
    | itemsObject ref items =>
      exact (((Grown.append budget _ (by decide)).trans
        (grown_appendItems classes budget "" items _)).followed _).preceded
    | entriesObject ref entries =>
      exact (((Grown.append budget _ (by decide)).trans
        (grown_appendEntries classes budget "" entries _)).followed _).preceded

/-- A text to which items are appended grows by a byte for each of their nodes. -/
theorem grown_appendItems (classes : Hierarchy) (budget : Nat) (separator : String)
    (items : List Value) (out : String) :
    Grown budget (itemNodes items) out (appendItems classes budget separator items out) := by
  -- Separators come in addition to the bytes of the nodes, and none is promised for them.
  cases items with
  | nil => exact ⟨Nat.le_refl _, fun _ => Nat.le_refl _⟩
  | cons item rest =>
    rw [appendItems]
    split
    · next exceeded => exact .of_exceeded exceeded _
    · exact ((grown_appendText classes budget item _).preceded).trans
        (grown_appendItems classes budget ", " rest _)

/-- A text to which entries are appended grows by a byte for each node of their keys and stored
values. -/
theorem grown_appendEntries (classes : Hierarchy) (budget : Nat) (separator : String)
    (entries : List (Value × Value)) (out : String) :
    Grown budget (entryNodes entries) out (appendEntries classes budget separator entries out) := by
  -- The first entry pays for its nodes and the others for theirs, until the budget is used up.
  cases entries with
  | nil => exact .append budget out (Nat.zero_le _)
  | cons entry rest =>
    obtain ⟨key, stored⟩ := entry
    rw [appendEntries]
    split
    · next exceeded => exact .of_exceeded exceeded _
    · -- The separator and the colon come in addition.
      exact (((grown_appendText classes budget key _).preceded).trans
        ((grown_appendText classes budget stored _).preceded)).trans
        (grown_appendEntries classes budget ", " rest _)

end

section Replace

variable (classes : Hierarchy) {budget : Nat} (new : Value)

mutual

/-- A node beyond the budget is not looked at when its value is appended. -/
theorem appendText_replaceAt (index : Nat) (value : Value) (out : String)
    (beyond : budget < out.utf8ByteSize + index) :
    appendText classes budget (value.replaceAt index new) out =
      appendText classes budget value out := by
  -- The text before counts towards the budget, and so do the nodes that come before the new one.
  by_cases exceeded : budget < out.utf8ByteSize
  · rw [appendText_of_exceeded _ _ exceeded, appendText_of_exceeded _ _ exceeded]
  · -- The value itself is within the budget, so it is not the node that is replaced.
    cases index with
    | zero => exact absurd beyond exceeded
    | succ below =>
      cases value with
      | container kind items =>
        -- The opening has taken the byte of the value, and the node is looked for inside.
        have opened : Grown budget 1 out (out ++ kind.opening items.length) :=
          .append budget out (kind.opening_size_pos _)
        simp only [replaceAt, appendText, exceeded, ↓reduceIte, length_replaceItems]
        rw [appendItems_replaceItems below items _ _ (opened.beyond beyond (by omega))]
      | dict entries =>
        have opened : Grown budget 1 out (out ++ "\x7b") := .append budget out (by decide)
        simp only [replaceAt, appendText, exceeded, ↓reduceIte]
        rw [appendEntries_replaceEntries below entries _ _ (opened.beyond beyond (by omega))]
      | itemsObject ref items =>
        have opened : Grown budget 1 out (out ++ classes.nameOf ref ++ "([") :=
          (Grown.append budget _ (by decide)).preceded
        simp only [replaceAt, appendText, exceeded, ↓reduceIte]
        rw [appendItems_replaceItems below items _ _ (opened.beyond beyond (by omega))]
      | entriesObject ref entries =>
        have opened : Grown budget 1 out (out ++ classes.nameOf ref ++ "(\x7b") :=
          (Grown.append budget _ (by decide)).preceded
        simp only [replaceAt, appendText, exceeded, ↓reduceIte]
        rw [appendEntries_replaceEntries below entries _ _ (opened.beyond beyond (by omega))]
      | _ => rfl

/-- A node beyond the budget is not looked at when the items are appended among which it is. -/
theorem appendItems_replaceItems (index : Nat) (items : List Value) (separator out : String)
    (beyond : budget < out.utf8ByteSize + index) :
    appendItems classes budget separator (replaceItems items index new) out =
      appendItems classes budget separator items out := by
  -- The node is in the first item, or in a later one.
  cases items with
  | nil => rfl
  | cons item rest =>
    have separated : Grown budget 0 out (out ++ separator) := .append budget out (Nat.zero_le _)
    have there : budget < (out ++ separator).utf8ByteSize + index :=
      separated.beyond beyond (Nat.zero_le _)
    rw [replaceItems]
    split
    · rw [appendItems, appendItems, appendText_replaceAt index item _ there]
    · next later =>
      -- All nodes of the first item come before the one that is replaced.
      have passed := (grown_appendText classes budget item (out ++ separator)).beyond there
        (Nat.le_of_not_lt later)
      rw [appendItems, appendItems, appendItems_replaceItems _ rest _ _ passed]

/-- A node beyond the budget is not looked at when the entries are appended among which it is. -/
theorem appendEntries_replaceEntries (index : Nat) (entries : List (Value × Value))
    (separator out : String) (beyond : budget < out.utf8ByteSize + index) :
    appendEntries classes budget separator (replaceEntries entries index new) out =
      appendEntries classes budget separator entries out := by
  -- The node is in the first key, in what is stored under it, or in a later entry.
  cases entries with
  | nil => rfl
  | cons entry rest =>
    obtain ⟨key, stored⟩ := entry
    have separated : Grown budget 0 out (out ++ separator) := .append budget out (Nat.zero_le _)
    have there : budget < (out ++ separator).utf8ByteSize + index :=
      separated.beyond beyond (Nat.zero_le _)
    have keyDone := (grown_appendText classes budget key (out ++ separator)).followed ": "
    rw [replaceEntries]
    split
    · rw [appendEntries, appendEntries, appendText_replaceAt index key _ there]
    · next later =>
      -- The key has taken its bytes, and so have all nodes of it.
      have passed := keyDone.beyond there (Nat.le_of_not_lt later)
      split
      · rw [appendEntries, appendEntries, appendText_replaceAt _ stored _ passed]
      · next evenLater =>
        -- Both the key and what is stored under it have taken their bytes.
        have bothPassed := (grown_appendText classes budget stored _).beyond passed
          (Nat.le_of_not_lt evenLater)
        rw [appendEntries, appendEntries, appendEntries_replaceEntries _ rest _ _ bothPassed]

end

end Replace

/-- Whatever is put in the place of a node beyond four times the limit, the excerpt of a value under
that limit is the same, and so are its cut text and its description. -/
theorem excerpt_replaceAt (classes : Hierarchy) (value new : Value) {limit index : Nat}
    (beyond : min (4 * limit) largestBudget < index) :
    (value.replaceAt index new).excerpt classes limit = value.excerpt classes limit ∧
      (value.replaceAt index new).brief classes limit = value.brief classes limit ∧
      (value.replaceAt index new).describe classes limit = value.describe classes limit := by
  -- At the start no byte is written yet, so the whole budget is left for the nodes in front.
  have excerpts : (value.replaceAt index new).excerpt classes limit =
      value.excerpt classes limit :=
    appendText_replaceAt classes new index value "" (by simpa using beyond)
  have briefs : (value.replaceAt index new).brief classes limit = value.brief classes limit := by
    rw [brief, brief, excerpts]
  refine ⟨excerpts, briefs, ?_⟩
  -- The value itself is not replaced, so its class is the same, or it is still `None`.
  cases index with
  | zero => exact absurd beyond (Nat.not_lt_zero _)
  | succ below =>
    cases value with
    | container | dict | itemsObject | entriesObject =>
      simp only [describe, briefs]
      rfl
    | _ => rfl

/-- Keys within keys take a byte each: the fifth below the outermost is not looked at for an excerpt
of one character, but the fourth is. -/
theorem excerpt_replaceAt_keys_within_keys :
    let around (key : Value) : Value := .dict [(key, .none)]
    let value : Value := around (around (around (around (around (.str "é")))))
    let new : Value := .container .list [.bool true, .float ⟨0⟩]
    min (4 * 1) largestBudget < 5 ∧
      value.replaceAt 5 new = around (around (around (around (around new)))) ∧
      ((value.replaceAt 5 new).excerpt .initial 1 = value.excerpt .initial 1 ∧
        (value.replaceAt 5 new).brief .initial 1 = value.brief .initial 1 ∧
        (value.replaceAt 5 new).describe .initial 1 = value.describe .initial 1) ∧
      (value.replaceAt 4 new).excerpt .initial 1 ≠ value.excerpt .initial 1 := by
  -- The limit of one character leaves a budget of four bytes.
  intro around value new
  exact ⟨by decide, rfl, excerpt_replaceAt .initial value new (by decide), by decide⟩

end Value

end Misfit
