import Misfit.Proofs.Cause.Members
import Misfit.Proofs.Hint.Visits
import Misfit.Query.Cause

/-! What the explainers answer, as they pass a query on with its indent, label and style, is what a
check finds that knows nothing of these, put into words. -/

namespace Misfit

namespace Answer

/-- The answers to images of items are looked through like the answers to the items. -/
theorem first_map {α β : Type} (ask : β → Answer) (image : α → β) (items : List α) :
    first ask (items.map image) = first (fun item => ask (image item)) items := by
  -- Each turn asks about the image of one item.
  induction items with
  | nil => rfl
  | cons item rest ih => rw [List.map_cons, first, first, ih]

/-- The answers to parts of a hint can be looked through without regard to their being parts. -/
theorem first_attach (hint : Hint) (ask : Hint → Answer) :
    first (fun part : hint.Part => ask part.1) hint.parts.attach = first ask hint.parts := by
  -- Each part is asked about as the hint that it is.
  rw [← first_map ask Subtype.val, List.attach_map_subtype_val]

/-- So can the answers to pairs of such parts and others. -/
theorem first_zip_attach {α : Type} (hint : Hint) (others : List α) (ask : Hint × α → Answer) :
    first (fun pair : hint.Part × α => ask (pair.1.1, pair.2)) (hint.parts.attach.zip others) =
      first ask (hint.parts.zip others) := by
  -- The pairs are the same, with their first parts taken as hints.
  have taken := first_map ask (Prod.map Subtype.val id) (hint.parts.attach.zip others)
  rw [← List.zip_map, List.attach_map_subtype_val, List.map_id] at taken
  exact taken.symm

/-- Where every question is left out, so are all of them. -/
theorem first_of_none {α : Type} {ask : α → Answer} {items : List α}
    (each : ∀ item ∈ items, ask item = .ok none) : first ask items = .ok none := by
  -- An answer without a cause leads on to the next item, up to the end.
  induction items with
  | nil => rfl
  | cons item rest ih =>
    rw [first, each item (by simp), ih fun later member => each later (by simp [member])]
    rfl

end Answer

namespace Query

/-- A finding in words: the cause of a misfit, nothing for a fit, or the failure. -/
def word (query : Query) : Finding Cause → Answer
  | .fits => .ok none
  | .misfit cause => .ok (some (cause.text query.classes query.style query.indent))
  | .blocked obstacle => .error (obstacle.failure query.classes query.label)

/-- The queries that an explainer makes are answered as their checks find. -/
def Faithful {query : Query} (ask : query.Asking) : Prop :=
  ∀ inner smaller, ask inner smaller = inner.word (inner.hint.check inner.classes inner.value)

variable {query : Query}

/-- Queries that differ in value and hint only put a finding into the same words. -/
theorem word_onPair (pair : Hint × Value) (found : Finding Cause) :
    (query.onPair pair).word found = query.word found := by
  -- The words depend on the indent, the label, the classes and the style, and all four are kept.
  cases found <;> rfl

/-- A further check is a further question. -/
theorem word_andThen (found : Finding Cause) (next : Unit → Finding Cause) :
    query.word (found.andThen next) = (query.word found).andThen fun _ => query.word (next ()) := by
  -- Both go on after a fit only.
  cases found <;> rfl

/-- A check that is left out is a question that is left out. -/
theorem word_unlessVacuous (hint : Hint) (found : Unit → Finding Cause) :
    query.word (Finding.unlessVacuous hint found) =
      Answer.unlessVacuous hint fun _ => query.word (found ()) := by
  -- The same hints are passed over by both.
  unfold Finding.unlessVacuous Answer.unlessVacuous
  split <;> rfl

/-- A search for the first misfit is a search for the first cause. -/
theorem word_firstOf {α : Type} (check : α → Finding Cause) (items : List α) :
    query.word (Finding.firstOf check items) =
      Answer.first (fun item => query.word (check item)) items := by
  -- Both go through the items one after the other.
  induction items with
  | nil => rfl
  | cons item rest ih => rw [Finding.firstOf_cons, word_andThen, Answer.first, ih]

/-- A misfit of a part is put into words about the whole value. -/
theorem word_inside (step : Step) (found : Finding Cause) :
    query.word (found.inside query.value step) = (query.word found).reword (query.within step) := by
  -- The words for the way to the part go before those for its own cause.
  cases found <;> rfl

/-- Asking about the value itself under another hint is checking it under that hint. -/
theorem ask_about_eq {ask : query.Asking} (faithful : Faithful ask) (hint : Hint)
    (smaller : hint.depth < query.hint.depth) :
    ask (query.about hint) smaller = query.word (hint.check query.classes query.value) :=
  -- The new query differs from the present one in nothing but its hint.
  (faithful (query.about hint) smaller).trans (word_onPair (hint, query.value) _)

/-- Asking for an instance of a class is checking for one. -/
theorem askOrigin_eq {ask : query.Asking} (faithful : Faithful ask) (origin : ClassRef)
    (composite : 0 < query.hint.depth) :
    query.askOrigin ask origin composite =
      query.word (query.classes.checkInstance origin query.value) :=
  -- A plain class is checked by that test alone.
  ask_about_eq faithful (.instanceOf origin) composite

/-- Asking about a part is checking it as a part of the whole value. -/
theorem askPart_eq {ask : query.Asking} (faithful : Faithful ask) (step : Step)
    (hint : query.hint.Part) (part : Value) :
    query.askPart ask step hint part =
      query.word ((hint.1.check query.classes part).inside query.value step) := by
  -- The cause is the one that is told of the part, with the way to the part in front.
  have told := (faithful _ (Hint.depth_part_lt hint.2)).trans
    (word_onPair (hint.1, part) (hint.1.check query.classes part))
  rw [word_inside, ← told]
  rfl

/-- A plain class is asked about as it is checked. -/
theorem explainClass_eq (query : Query) {ref : ClassRef} (shape : query.hint = .instanceOf ref) :
    query.explainClass = query.word (query.hint.check query.classes query.value) := by
  obtain ⟨value, hint, indent, label, classes, style⟩ := query
  subst shape
  -- Both test whether the class of the value descends from the one asked for.
  simp only [explainClass, Hint.check, Hierarchy.checkInstance]
  split <;> rfl

/-- A class object is asked about as it is checked. -/
theorem explainSubclass_eq (query : Query) {ref : ClassRef} (shape : query.hint = .subclassOf ref) :
    query.explainSubclass = query.word (query.hint.check query.classes query.value) := by
  obtain ⟨value, hint, indent, label, classes, style⟩ := query
  subst shape
  -- What is no class object is turned away before any descent is looked for.
  cases value with
  | classObject child =>
    simp only [explainSubclass, Hint.check, Hierarchy.checkSubclass]
    split <;> rfl
  | _ => rfl

/-- Named values are asked about as they are checked. -/
theorem explainLiteral_eq (query : Query) {named : List Value}
    (shape : query.hint = .literal named) :
    query.explainLiteral = query.word (query.hint.check query.classes query.value) := by
  obtain ⟨value, hint, indent, label, classes, style⟩ := query
  subst shape
  -- Both look for a named value that the value literally is.
  simp only [explainLiteral, Hint.check, Value.checkLiteral]
  split <;> rfl

section

variable {ask : query.Asking}

/-- A name is asked about as it is checked. -/
theorem explainForwardRef_eq (faithful : Faithful ask) {name : String}
    (shape : query.hint = .forwardRef name) :
    query.explainForwardRef ask = query.word (query.hint.check query.classes query.value) := by
  obtain ⟨value, hint, indent, label, classes, style⟩ := query
  subst shape
  -- A name that stands for no class is the same obstacle to both.
  simp only [explainForwardRef, Hint.check, askOrigin_eq faithful]
  cases classes.latest? name <;> rfl

/-- The bases of a generic hint are asked about as they are checked. -/
theorem explainGeneric_eq (faithful : Faithful ask) {origin : ClassRef} {bases : List Hint}
    (shape : query.hint = .generic origin bases) :
    query.explainGeneric ask = query.word (query.hint.check query.classes query.value) := by
  obtain ⟨value, hint, indent, label, classes, style⟩ := query
  subst shape
  -- The value itself is looked at again under each base.
  have each (base : (Hint.generic origin bases).Part) :=
    ask_about_eq faithful base.1 (Hint.depth_part_lt base.2)
  simp only [explainGeneric, Hint.check, askOrigin_eq faithful, each, word_andThen,
    Hint.checkBases_eq_firstOf, word_firstOf]
  exact congrArg (Answer.andThen _) (funext fun _ =>
    Answer.first_attach (.generic origin bases) fun base => word _ (base.check classes value))

/-- The items of a collection are asked about as they are checked. -/
theorem explainCollection_eq (faithful : Faithful ask) {form : CollectionForm} {item : Hint}
    (shape : query.hint = .collection form item) :
    query.explainCollection ask = query.word (query.hint.check query.classes query.value) := by
  obtain ⟨value, hint, indent, label, classes, style⟩ := query
  subst shape
  simp only [explainCollection, Hint.check, askOrigin_eq faithful, askPart_eq faithful,
    word_andThen, word_unlessVacuous, word_firstOf]
  -- A value whose items cannot be seen has none to be looked through.
  cases value.items? <;> rfl

/-- The keys and stored values of a mapping are asked about as they are checked. -/
theorem explainMapping_eq (faithful : Faithful ask) {form : MappingForm} {key stored : Hint}
    (shape : query.hint = .mapping form key stored) :
    query.explainMapping ask = query.word (query.hint.check query.classes query.value) := by
  -- After the class, entry by entry the key is asked about and then what is stored under it.
  obtain ⟨value, hint, indent, label, classes, style⟩ := query
  subst shape
  simp only [explainMapping, Hint.check, askOrigin_eq faithful, askPart_eq faithful,
    word_andThen, word_unlessVacuous, word_firstOf]
  congr
  funext _
  split
  · next vacuous =>
    -- Where keys and stored values are left out alike, so is every entry.
    obtain ⟨keys, values⟩ := (Bool.and_eq_true_iff.mp vacuous)
    refine (Answer.first_of_none fun entry _ => ?_).symm
    simp [Answer.unlessVacuous, keys, values, Answer.andThen]
  · cases value.pairs? <;> rfl

/-- The items of a tuple are asked about as they are checked. -/
theorem explainTuple_eq (faithful : Faithful ask) {hints : List Hint}
    (shape : query.hint = .tuple hints) :
    query.explainTuple ask = query.word (query.hint.check query.classes query.value) := by
  -- The class is asked for first, then the number of items, and then the items one by one.
  obtain ⟨value, hint, indent, label, classes, style⟩ := query
  subst shape
  simp only [explainTuple, Hint.check, askOrigin_eq faithful, askPart_eq faithful,
    word_andThen]
  congr
  funext _
  cases value.items? with
  | none => rfl
  | some items =>
    -- A hint without items has words of its own for a tuple that has some.
    cases hints with
    | nil => cases items <;> rfl
    | cons hint rest =>
      by_cases same : items.length = rest.length + 1
      · -- As many items as hints are looked through in pairs.
        simp only [List.isEmpty_cons, Bool.false_eq_true, ↓reduceIte, List.length_cons, same,
          ne_eq, not_true_eq_false, beq_self_eq_true, Hint.checkEach_eq_firstOf, word_firstOf,
          Answer.first_map, Hint.Visit.check, word_unlessVacuous]
        exact Answer.first_zip_attach (.tuple (hint :: rest)) items.zipIdx fun entry =>
          Answer.unlessVacuous entry.1 fun _ => word _
            ((entry.1.check classes entry.2.1).inside value (.index entry.2.2))
      · simp [same, Ne.symm same]
        rfl

/-- The items of a tuple of any length are asked about as they are checked. -/
theorem explainTuple_eq_of_tupleOf (faithful : Faithful ask) {item : Hint}
    (shape : query.hint = .tupleOf item) :
    query.explainTuple ask = query.word (query.hint.check query.classes query.value) := by
  obtain ⟨value, hint, indent, label, classes, style⟩ := query
  subst shape
  simp only [explainTuple, Hint.check, askOrigin_eq faithful, askPart_eq faithful,
    word_andThen, word_unlessVacuous, word_firstOf]
  congr
  funext _
  cases value.items? with
  -- Without visible items there is no question to be left out.
  | none => exact (ite_self _).symm
  | some items => rfl

end

/-- A cause as it is worded among the alternatives of a union, for one level deeper. -/
def wordDeeper (query : Query) (cause : Cause) : String :=
  cause.text query.classes query.style (query.indent ++ query.style.bulletIndent)

/-- What is told of members of a union, from what checks of them find. -/
def tell (query : Query) (members : List Hint) :
    Finding (List Cause) → Except Failure (Option Told)
  | .fits => .ok none
  | .misfit causes => .ok (some ⟨members.filterMap Hint.plainClass?,
      ((members.zip causes).filterMap Hint.ofOther?).map query.wordDeeper⟩)
  | .blocked obstacle => .error (obstacle.failure query.classes query.label)

/-- Members are asked about as they are checked. -/
theorem tellMembers_eq {ask : query.hint.Part → Answer}
    (each : ∀ member, ask member =
      (query.forMember member.1).word (member.1.check query.classes query.value))
    (members : List query.hint.Part) :
    query.tellMembers ask members = query.tell (members.map Subtype.val)
      (Hint.checkMembers query.classes (members.map Subtype.val) query.value) := by
  -- By induction on the members, which both go through until one fits.
  induction members with
  | nil => rfl
  | cons member rest ih =>
    rw [tellMembers, List.map_cons, Hint.checkMembers, Finding.unlessVacuous]
    by_cases vacuous : member.1.isVacuous = true
    · -- A vacuous member settles the union for both.
      rw [if_pos vacuous, if_pos vacuous]
      rfl
    · rw [if_neg vacuous, if_neg vacuous, each, ih]
      cases member.1.check query.classes query.value with
      | fits => rfl
      | blocked obstacle => rfl
      | misfit cause =>
        -- The first member is a plain class or not, and the rest is told of as before.
        cases Hint.checkMembers query.classes (rest.map Subtype.val) query.value with
        | fits => rfl
        | blocked obstacle => rfl
        | misfit causes =>
          obtain ⟨hint, part⟩ := member
          cases hint <;> rfl

/-- The lines of a report are the wordings of the causes that are listed under the union. -/
theorem lines_eq (query : Query) (refs : List ClassRef) (others : List Cause) :
    query.lines ⟨refs, others.map query.wordDeeper⟩ =
      ((if refs.isEmpty then [] else [Cause.mismatch query.value (.instanceOf refs)]) ++
        others).map query.wordDeeper := by
  -- The one line for all plain classes is worded as one cause is.
  rw [List.map_append, lines]
  congr
  split <;> rfl

/-- A report lays out its lines as the wording of a cause lays out alternatives. -/
theorem report_eq {members : List Hint} (shape : query.hint = .union members)
    (causes : List Cause) :
    query.report (causes.map query.wordDeeper) =
      (Cause.alternatives query.value members causes).text query.classes query.style
        query.indent := by
  -- The layout goes by how many lines there are, and only for several is the union named.
  match causes with
  | [] => rfl
  | [_] => rfl
  | _ :: _ :: _ =>
    rw [Cause.text, Cause.texts_eq_map, ← shape]
    rfl

/-- The members of a union are asked about as they are checked. -/
theorem explainUnion_eq {ask : query.Asking} (faithful : Faithful ask) {members : List Hint}
    (shape : query.hint = .union members) :
    query.explainUnion ask = query.word (query.hint.check query.classes query.value) := by
  -- The members are asked about first, and what is told under them is put together at the end.
  obtain ⟨value, hint, indent, label, classes, style⟩ := query
  subst shape
  simp only [explainUnion, Hint.check]
  rw [tellMembers_eq fun member => faithful (forMember _ member.1) _]
  simp only [List.attach_map_subtype_val, Hint.parts]
  cases Hint.checkMembers classes members value with
  | fits => rfl
  | misfit causes =>
    -- Only where no member fits there is something to report.
    have worded := lines_eq ⟨value, .union members, indent, label, classes, style⟩
      (members.filterMap Hint.plainClass?) ((members.zip causes).filterMap Hint.ofOther?)
    exact congrArg (fun text => Except.ok (some text))
      ((congrArg (report _) worded).trans (report_eq rfl _))
  | blocked obstacle => rfl

/-- An explainer answers as the check finds, if its own queries are answered so and the hint is one
of those that go to it. -/
theorem explain_eq {ask : query.Asking} (faithful : Faithful ask) {explainer : Explainer}
    (own : query.hint.explainer? = some explainer) :
    explainer.explain query ask = query.word (query.hint.check query.classes query.value) := by
  obtain ⟨value, hint, indent, label, classes, style⟩ := query
  -- Each form of hint goes to the explainer that is made for it, and three forms go to none.
  cases hint with
  | any => cases own; rfl
  | instanceOf ref =>
    cases own
    exact explainClass_eq ⟨value, .instanceOf ref, indent, label, classes, style⟩ rfl
  -- The hints with parts need the queries for these to be answered faithfully.
  | union members => cases own; exact explainUnion_eq faithful rfl
  | collection form item => cases own; exact explainCollection_eq faithful rfl
  | tuple hints => cases own; exact explainTuple_eq faithful rfl
  | tupleOf item => cases own; exact explainTuple_eq_of_tupleOf faithful rfl
  | mapping form key stored => cases own; exact explainMapping_eq faithful rfl
  | generic origin bases => cases own; exact explainGeneric_eq faithful rfl
  | subclassOf ref =>
    cases own
    exact explainSubclass_eq ⟨value, .subclassOf ref, indent, label, classes, style⟩ rfl
  | literal named =>
    cases own
    exact explainLiteral_eq ⟨value, .literal named, indent, label, classes, style⟩ rfl
  | forwardRef name => cases own; exact explainForwardRef_eq faithful rfl
  | callable | typeVar | foreign => cases own

/-- A hint goes to no explainer exactly if its check is blocked by its form. -/
theorem word_of_explainer_eq_error {failure : Failure}
    (unexplained : query.explainer = .error failure) :
    query.word (query.hint.check query.classes query.value) = .error failure := by
  obtain ⟨value, hint, indent, label, classes, style⟩ := query
  -- The failure is that of an unknown form, or of a category without an explainer.
  cases hint with
  | callable | typeVar | foreign => cases unexplained; rfl
  | _ => cases unexplained

/-- Which explainer a query goes to depends on its hint alone. -/
theorem explainer_eq_ok_iff {explainer : Explainer} :
    query.explainer = .ok explainer ↔ query.hint.explainer? = some explainer := by
  unfold Query.explainer
  -- Where the hint has no explainer, there is a failure of one kind or the other.
  cases query.hint.explainer? with
  | some own => simp
  | none => cases query.category? <;> simp

/-- The answer to a query is what the check of its value finds, put into words with the indent, the
label and the style of the query. -/
theorem cause_eq_word (query : Query) :
    query.cause = query.word (query.hint.check query.classes query.value) := by
  -- The queries that the explainer makes are answered so by induction on the depth of their hints.
  induction query using cause.induct with
  | case1 query failure unexplained =>
    rw [cause, unexplained, word_of_explainer_eq_error unexplained]
  | case2 query explainer found ih =>
    rw [cause, found]
    exact explain_eq (fun inner smaller => ih inner smaller) (explainer_eq_ok_iff.mp found)

/-- An explainer to which a hint goes gives the answer about it. -/
theorem causeBy_eq_cause {explainer : Explainer} (own : query.hint.explainer? = some explainer) :
    query.causeBy explainer = query.cause := by
  -- The query is given to that explainer, and to no other.
  rw [cause, explainer_eq_ok_iff.mpr own]
  rfl

/-- An explainer to which a hint does not go refuses it, unless it explains the hint for any value,
which it does without looking at the hint. -/
theorem causeBy_of_ne {explainer : Explainer} (other : query.hint.explainer? ≠ some explainer)
    (asks : explainer ≠ .any) : query.causeBy explainer = .error query.unknownForm := by
  obtain ⟨value, hint, indent, label, classes, style⟩ := query
  -- Each explainer looks for its own forms, and those are the forms of hints that go to it.
  cases explainer with
  | any => exact absurd rfl asks
  | _ =>
    cases hint with
    | _ => first | rfl | exact absurd rfl other

end Query

end Misfit
