import Mathlib.Control.Monad.Basic
import Misfit.Proofs.Query.Fault

/-! A cause under hints without unions tells the way to the first fault, and the fault itself. -/

namespace Misfit

namespace Hint

/-- A hint without a union at any depth. -/
def UnionFree (hint : Hint) : Prop :=
  Everywhere parts (fun part => ∀ members, part ≠ .union members) hint

/-- What a check of a hint without unions visits has no unions. -/
theorem UnionFree.visit {hint : Hint} (unionFree : hint.UnionFree) {classes : Hierarchy}
    {value : Value} {visit : Visit} (member : visit ∈ hint.visits classes value) :
    visit.hint.UnionFree := by
  -- A plain class is no union.
  exact everywhere_of_mem_visits (by simp) unionFree member

end Hint

namespace Query

open Hint (Visit)

/-- The same query about a visited pair. -/
def onVisit (query : Query) (visit : Visit) : Query :=
  query.change { value := some visit.value, hint := some visit.hint }

/-- A pair of a value and a hint on the way to a fault, with the step by which the way leaves the
value, if it does. -/
structure Link where
  value : Value
  hint : Hint
  step : Option Step

/-- The words for a link: the value that the way leaves and the step to its part. -/
def Link.text (query : Query) (link : Link) : String :=
  let value := link.value.describe query.classes query.style.excerptLimit
  match link.step with
  -- The value is not left where it is only looked at under another hint.
  | none => ""
  | some (.index position) => value ++ " index " ++ Decimal.ofNat position ++ " item "
  | some .item => value ++ " item "
  | some .key => value ++ " key "
  | some (.valueAt key) => value ++ " key " ++ query.brief key ++ " value "

/-- A way from one pair to another: at each link the pair itself is not at fault, and the visits
before the one taken are left out or give no cause. -/
inductive Leads (query : Query) : Hint → Value → List Link → Hint → Value → Prop where
  | here {hint : Hint} {value : Value} : Leads query hint value [] hint value
  | on {hint last : Hint} {value fault : Value} {before after : List Visit} {visit : Visit}
      {links : List Link} (sound : ∀ words, ¬query.Fault hint value words)
      (visits : hint.visits query.classes value = before ++ visit :: after)
      (passed : ∀ earlier ∈ before,
        earlier.Skipped ∨ (query.onVisit earlier).cause = .ok none)
      (taken : ¬visit.Skipped) (onward : Leads query visit.hint visit.value links last fault) :
      Leads query hint value (⟨value, hint, visit.step⟩ :: links) last fault

/-- The words for a step into a value are those with which causes pass on to its part. -/
theorem linkText_some (query : Query) (value : Value) (hint : Hint) (step : Step) :
    Link.text query ⟨value, hint, some step⟩ =
      value.describe query.classes query.style.excerptLimit ++ " " ++
        step.text query.classes query.style ++ " " := by
  -- The two sides differ in which of two words the space between them is written with.
  have index : " index " = " " ++ "index " := rfl
  have item : " item " = " " ++ "item" ++ " " := rfl
  have item' : " item" = " " ++ "item" := rfl
  have key : " key " = " " ++ "key" ++ " " := rfl
  have key' : "key " = "key" ++ " " := rfl
  have value_ : " value " = " value" ++ " " := rfl
  cases step <;>
    simp only [Link.text, Step.text, Query.brief, index, item, item', key, key', value_,
      String.append_assoc]

/-- The words for the cause at a visited pair follow those for the link to that pair. -/
theorem text_reason (query : Query) (value : Value) (hint : Hint) (visit : Visit)
    (inner : Cause) :
    (visit.reason value inner).text query.classes query.style query.indent =
      Link.text query ⟨value, hint, visit.step⟩ ++
        inner.text query.classes query.style query.indent := by
  -- Only a step into the value adds words to the cause.
  unfold Visit.reason
  cases step : visit.step with
  | none => rw [Link.text, String.empty_append]
  | some step => rw [linkText_some, Cause.text]

/-- The words for a way to a fault: those for its links, and then those for the fault. -/
def account (query : Query) (links : List Link) (fault : Value) (words : String) : String :=
  String.join (links.map (Link.text query)) ++
    fault.describe query.classes query.style.excerptLimit ++ words

/-- A further link is told of before all others. -/
theorem account_cons (query : Query) (link : Link) (links : List Link) (fault : Value)
    (words : String) :
    query.account (link :: links) fault words =
      link.text query ++ query.account links fault words := by
  -- The words of the links are joined in their order.
  simp [account, String.append_assoc]

/-- A misfit under a hint without unions is the account of a way to a fault. -/
theorem leads_of_check (query : Query) {hint : Hint} {value : Value} {reason : Cause}
    (unionFree : hint.UnionFree)
    (misfit : hint.check query.classes value = .misfit reason) :
    ∃ links last fault words, query.Leads hint value links last fault ∧
      query.Fault last fault words ∧
      reason.text query.classes query.style query.indent = query.account links fault words := by
  -- The search ends at the first visit that finds a misfit, and the way goes on from there.
  induction hint, value using Hint.visits_induction query.classes generalizing reason with
  | step hint value visited _ =>
    rw [Hint.check_eq_visits unionFree.here] at misfit
    cases itself : hint.checkItself query.classes value with
    | blocked obstacle =>
      rw [itself] at misfit
      cases misfit
    | misfit other =>
      -- The way ends here: the value itself is at fault.
      rw [itself] at misfit
      cases misfit
      obtain ⟨expected, rfl, fault⟩ := fault_of_checkItself itself
      refine ⟨[], hint, value, _, .here, fault, ?_⟩
      simp [Cause.text, account, String.append_assoc]
    | fits =>
      -- Of the visits, those before the first misfit have all been found to fit.
      rw [itself, Finding.fits_andThen, Finding.firstOf_eq_misfit] at misfit
      obtain ⟨before, visit, after, split, passed, taken⟩ := misfit
      obtain ⟨notSkipped, inner, misfit, rfl⟩ := Visit.check_eq_misfit.mp taken
      have member : visit ∈ hint.visits query.classes value := by simp [split]
      obtain ⟨links, last, fault, words, onward, faulty, told⟩ :=
        visited visit member (unionFree.visit member) misfit
      -- The link is sound, since the value itself was found to fit under a hint that is explained.
      have explained := Hint.explained_of_mem_visits member
      have sound := (checkItself_eq_fits_iff explained).mp itself
      have passed' : ∀ earlier ∈ before,
          earlier.Skipped ∨ (query.onVisit earlier).cause = .ok none := by
        intro earlier listed
        have fits := Visit.check_eq_fits.mp (passed earlier listed)
        exact fits.imp_right cause_eq_none_iff.mpr
      refine ⟨_, last, fault, words, .on sound split passed' notSkipped onward, faulty, ?_⟩
      rw [text_reason query value hint, told, account_cons]

/-- The account of a way to a fault under a hint without unions is the cause of a misfit. -/
theorem Leads.check {query : Query} {hint last : Hint} {value fault : Value} {links : List Link}
    {words : String} (leads : query.Leads hint value links last fault)
    (faulty : query.Fault last fault words) (unionFree : hint.UnionFree) :
    ∃ reason, hint.check query.classes value = .misfit reason ∧
      reason.text query.classes query.style query.indent = query.account links fault words := by
  -- Each link adds one step to the cause found at its visit, which is the first that is no fit.
  induction leads with
  | @here hint value =>
    -- At the end of the way the fault is what a check finds.
    obtain ⟨expected, itself, rfl⟩ := faulty.checkItself
    refine ⟨.mismatch value expected, ?_, ?_⟩
    · rw [Hint.check_eq_visits unionFree.here, itself]
      rfl
    · simp [Cause.text, account, String.append_assoc]
  | @on hint last value fault before after visit links sound split passed taken onward ih =>
    have member : visit ∈ hint.visits query.classes value := by simp [split]
    obtain ⟨inner, misfit, told⟩ := ih faulty (unionFree.visit member)
    -- A pair that leads on and is not at fault itself can only have been found to fit so far.
    have explained := Hint.explained_of_mem_visits member
    have itself := (checkItself_eq_fits_iff explained).mpr sound
    refine ⟨visit.reason value inner, ?_, ?_⟩
    · rw [Hint.check_eq_visits unionFree.here, itself, Finding.fits_andThen,
        Finding.firstOf_eq_misfit]
      refine ⟨before, visit, after, split, ?_, ?_⟩
      · -- Visits that were passed are those that are left out or whose pairs have no cause.
        intro earlier listed
        exact Visit.check_eq_fits.mpr ((passed earlier listed).imp_right cause_eq_none_iff.mp)
      · exact Visit.check_eq_misfit.mpr ⟨taken, inner, misfit, rfl⟩
    · rw [text_reason query value hint, told, account_cons]

/-- Under a hint without unions, a cause is the account of a way to a fault, on which no pair is
itself at fault and whatever is visited earlier is left out or gives no cause. -/
theorem cause_eq_some_iff_account (query : Query) (unionFree : query.hint.UnionFree)
    (text : String) :
    query.cause = .ok (some text) ↔
      ∃ links last fault words, query.Leads query.hint query.value links last fault ∧
        query.Fault last fault words ∧ text = query.account links fault words := by
  -- A cause is the wording of a misfit, and each direction is a result about misfits.
  rw [cause_eq_some_iff]
  constructor
  · rintro ⟨reason, misfit, rfl⟩
    exact leads_of_check query unionFree misfit
  · rintro ⟨links, last, fault, words, leads, faulty, rfl⟩
    exact leads.check faulty unionFree

/-- An item of an instance of a class below lists, held under a key, is not of the class named. -/
theorem cause_eq_some_stored_stack :
    let classes := (Hierarchy.initial.define "Stack" [.list]).2
    let value : Value := .dict [(.str "a", .itemsObject ⟨19⟩ [.int 1, .str "x"])]
    let hint : Hint :=
      .mapping .mapping .any (.generic ⟨19⟩ [.collection .sequence (.forwardRef "int")])
    let query : Query := ⟨value, hint, "  ", "f() parameter x", classes, {}⟩
    let text := "dict \x7b'a': Stack([1, 'x'])\x7d key 'a' value " ++
      "Stack Stack([1, 'x']) index 1 item " ++ "str 'x' not int"
    hint.UnionFree ∧ query.cause = .ok (some text) ∧
      ∃ links last fault words, query.Leads hint value links last fault ∧
        query.Fault last fault words ∧ text = query.account links fault words := by
  -- The way leads through the value of an entry, a base, an item and a name.
  intro classes value hint query text
  have named : (Hint.forwardRef "int").UnionFree := .leaf (by simp) rfl
  have items : (Hint.collection .sequence (.forwardRef "int")).UnionFree :=
    .intro (by simp) (by simpa [Hint.parts, Hint.UnionFree] using named)
  have stack : (Hint.generic ⟨19⟩ [.collection .sequence (.forwardRef "int")]).UnionFree :=
    .intro (by simp) (by simpa [Hint.parts, Hint.UnionFree] using items)
  have any : Hint.any.UnionFree := .leaf (by simp) rfl
  have unionFree : hint.UnionFree :=
    .intro (by simp [hint]) (by simpa [hint, Hint.parts] using ⟨any, stack⟩)
  -- The whole check and its wording are evaluated here.
  have told : query.cause = .ok (some text) := by decide +kernel
  exact ⟨unionFree, told, (cause_eq_some_iff_account query unionFree text).mp told⟩

end Query

end Misfit
