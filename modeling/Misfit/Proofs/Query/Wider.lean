import Misfit.Proofs.Finding.Compare
import Misfit.Proofs.Hierarchy.Extends
import Misfit.Proofs.Hierarchy.Order
import Misfit.Proofs.Hint.Equality
import Misfit.Proofs.Query.Answer
import Misfit.Proofs.Query.Union

/-! Wider hints: a value that fits a hint fits every hint that is wider. -/

namespace Misfit

/-- The form for the collections of the class directly above, if there is one. -/
def CollectionForm.wider? : CollectionForm → Option CollectionForm
  | .list => some .mutableSequence
  | .mutableSequence => some .sequence
  | .set => some .mutableSet
  | .mutableSet => some .abstractSet
  | .frozenSet => some .abstractSet
  | .sequence | .abstractSet => none

/-- The form for the collections of the class directly above, if there is one. -/
def MappingForm.wider? : MappingForm → Option MappingForm
  | .dict => some .mutableMapping
  | .mutableMapping => some .mapping
  | .mapping => none

/-- A class and the one directly above it, where both are asked for by forms of hints of which the
second is the next wider one. -/
inductive NextWider : ClassRef → ClassRef → Prop where
  | collection {form form' : CollectionForm} (wider : form.wider? = some form') :
      NextWider form.origin form'.origin
  | mapping {form form' : MappingForm} (wider : form.wider? = some form') :
      NextWider form.origin form'.origin
  -- Tuples are sequences, and have no other form above their own.
  | tuple : NextWider .tuple .sequence

/-- The class of the next wider form is a direct base of that of the form itself. -/
theorem NextWider.mem_basesOf {child base : ClassRef} (wider : NextWider child base) :
    base ∈ Hierarchy.initial.basesOf child := by
  -- There are eight such pairs, and the predefined classes list the base of each.
  cases wider with
  | @collection form _ wider => cases form <;> cases wider <;> decide
  | @mapping form _ wider => cases form <;> cases wider <;> decide
  | tuple => decide

/-- In every hierarchy that is built by definitions, the class of the next wider form is above that
of the form itself. -/
theorem NextWider.descends {classes : Hierarchy} (built : classes.WellBuilt)
    {child base : ClassRef} (wider : NextWider child base) : classes.Descends child base := by
  -- Definitions leave the bases of the classes before them.
  have direct := wider.mem_basesOf
  have kept := built.extends_initial.basesOf (Hierarchy.contains_of_mem_basesOf direct)
  exact .base (kept ▸ direct) .refl

namespace Hint

/-- One hint is narrower than another, by any number of the ways in which a hint can be made wider,
at any depth. -/
inductive Narrower (classes : Hierarchy) : Hint → Hint → Prop where
  | same {hint : Hint} : Narrower classes hint hint
  | trans {hint between wide : Hint} (lower : Narrower classes hint between)
      (upper : Narrower classes between wide) : Narrower classes hint wide
  | any {hint : Hint} : Narrower classes hint .any
  | instanceOf {child parent : ClassRef} (below : classes.derives child parent = true) :
      Narrower classes (.instanceOf child) (.instanceOf parent)
  -- Each part may be made wider at its own place.
  | item {form : CollectionForm} {item item' : Hint} (each : Narrower classes item item') :
      Narrower classes (.collection form item) (.collection form item')
  | items {hints hints' : List Hint} (length : hints.length = hints'.length)
      (each : ∀ pair ∈ hints.zip hints', Narrower classes pair.1 pair.2) :
      Narrower classes (.tuple hints) (.tuple hints')
  | everyItem {item item' : Hint} (each : Narrower classes item item') :
      Narrower classes (.tupleOf item) (.tupleOf item')
  | entry {form : MappingForm} {key key' value value' : Hint} (keys : Narrower classes key key')
      (values : Narrower classes value value') :
      Narrower classes (.mapping form key value) (.mapping form key' value')
  | bases {origin : ClassRef} {bases bases' : List Hint} (length : bases.length = bases'.length)
      (each : ∀ pair ∈ bases.zip bases', Narrower classes pair.1 pair.2) :
      Narrower classes (.generic origin bases) (.generic origin bases')
  -- The form itself may be made wider around the same parts.
  | collection {form form' : CollectionForm} {item : Hint} (wider : form.wider? = some form') :
      Narrower classes (.collection form item) (.collection form' item)
  | mapping {form form' : MappingForm} {key value : Hint} (wider : form.wider? = some form') :
      Narrower classes (.mapping form key value) (.mapping form' key value)
  | anyLength {hints : List Hint} {item : Hint} (each : ∀ hint ∈ hints, Narrower classes hint item) :
      Narrower classes (.tuple hints) (.tupleOf item)
  | sequence {item : Hint} : Narrower classes (.tupleOf item) (.collection .sequence item)
  | origin {origin : ClassRef} {bases : List Hint} :
      Narrower classes (.generic origin bases) (.instanceOf origin)
  | base {origin : ClassRef} {bases : List Hint} {base : Hint} (member : base ∈ bases) :
      Narrower classes (.generic origin bases) base
  | member {members : List Hint} {hint : Hint} (member : hint ∈ members) :
      Narrower classes hint (.union members)
  | union {members : List Hint} {hint : Hint}
      (each : ∀ member ∈ members, Narrower classes member hint) :
      Narrower classes (.union members) hint
  -- A named value may give way to an equal one.
  | literal {values values' : List Value}
      (each : ∀ value ∈ values, value ∈ values' ∨ ∃ other ∈ values', value.equal other = true) :
      Narrower classes (.literal values) (.literal values')

/-- All that one hint accepts is accepted by another. -/
def AcceptedBy (classes : Hierarchy) (hint wide : Hint) : Prop :=
  ∀ value, Accepts classes hint value → Accepts classes wide value

variable {classes : Hierarchy}

namespace AcceptedBy

/-- A class accepts what a class below it does. -/
theorem instanceOf (built : classes.WellBuilt) {child parent : ClassRef}
    (below : classes.derives child parent = true) :
    AcceptedBy classes (.instanceOf child) (.instanceOf parent) := by
  intro value accepts
  -- The class of the value is below the one, and that below the other.
  have class_ := accepts_instanceOf_iff.mp accepts
  have above := (Hierarchy.derives_iff_descends classes _ _).mp below
  exact .instanceOf (built.descends_trans class_ above)

/-- A collection is accepted with a wider hint for its items. -/
theorem item {form : CollectionForm} {item item' : Hint} (wider : AcceptedBy classes item item') :
    AcceptedBy classes (.collection form item) (.collection form item') := by
  intro value accepts
  -- The class asked for is the same, and each item goes over to the wider hint.
  obtain ⟨class_, each⟩ := accepts_collection_iff.mp accepts
  exact .collection class_ fun items seen part member => wider part (each items seen part member)

/-- A tuple is accepted with wider hints for its items, one by one. -/
theorem items {hints hints' : List Hint} (wider : List.Forall₂ (AcceptedBy classes) hints hints') :
    AcceptedBy classes (.tuple hints) (.tuple hints') := by
  intro value accepts
  obtain ⟨⟨class_, length⟩, each⟩ := accepts_tuple_iff.mp accepts
  refine .tuple class_ (fun visible seen => wider.length_eq ▸ length visible seen) ?_
  -- Each item stands beside a hint of either list, and the one accepts what the other does.
  intro visible seen pair member
  have paired := Counterparts.of_forall₂ (forall₂_zip_same wider visible)
  obtain ⟨narrow, listed, accepted, same⟩ := paired.2 pair member
  rw [← same]
  exact accepted _ (each visible seen narrow listed)

/-- A tuple of any length is accepted with a wider hint for its items. -/
theorem everyItem {item item' : Hint} (wider : AcceptedBy classes item item') :
    AcceptedBy classes (.tupleOf item) (.tupleOf item') := by
  intro value accepts
  -- As with collections, only the hint for the items changes.
  obtain ⟨class_, each⟩ := accepts_tupleOf_iff.mp accepts
  exact .tupleOf class_ fun items seen part member => wider part (each items seen part member)

/-- A mapping is accepted with wider hints for its keys and for its values. -/
theorem entry {form : MappingForm} {key key' stored stored' : Hint}
    (keys : AcceptedBy classes key key') (values : AcceptedBy classes stored stored') :
    AcceptedBy classes (.mapping form key stored) (.mapping form key' stored') := by
  intro value accepts
  -- Keys and values go over to their wider hints entry by entry.
  obtain ⟨class_, each⟩ := accepts_mapping_iff.mp accepts
  refine accepts_mapping_iff.mpr ⟨class_, fun entries seen entry member => ?_⟩
  obtain ⟨keyAccepts, valueAccepts⟩ := each entries seen entry member
  exact ⟨keys _ keyAccepts, values _ valueAccepts⟩

/-- An instance of a generic class is accepted with wider bases, one by one. -/
theorem bases {origin : ClassRef} {bases bases' : List Hint}
    (wider : List.Forall₂ (AcceptedBy classes) bases bases') :
    AcceptedBy classes (.generic origin bases) (.generic origin bases') := by
  intro value accepts
  obtain ⟨class_, each⟩ := accepts_generic_iff.mp accepts
  -- Every wider base has a narrower one at its place, which accepts the value.
  refine .generic class_ fun base member => ?_
  obtain ⟨narrow, listed, accepted⟩ := (Counterparts.of_forall₂ wider).2 base member
  exact accepted value (each narrow listed)

/-- The next wider form accepts the same collections, and more. -/
theorem collection (built : classes.WellBuilt) {form form' : CollectionForm} {item : Hint}
    (wider : form.wider? = some form') :
    AcceptedBy classes (.collection form item) (.collection form' item) := by
  intro value accepts
  -- Nothing changes but the class asked for, which is directly above.
  obtain ⟨class_, each⟩ := accepts_collection_iff.mp accepts
  have above := (NextWider.collection wider).descends built
  exact .collection (built.descends_trans class_ above) each

/-- The next wider form accepts the same mappings, and more. -/
theorem mapping (built : classes.WellBuilt) {form form' : MappingForm} {key stored : Hint}
    (wider : form.wider? = some form') :
    AcceptedBy classes (.mapping form key stored) (.mapping form' key stored) := by
  intro value accepts
  -- Nothing changes but the class asked for, which is directly above.
  obtain ⟨class_, each⟩ := accepts_mapping_iff.mp accepts
  have above := (NextWider.mapping wider).descends built
  exact accepts_mapping_iff.mpr ⟨built.descends_trans class_ above, each⟩

/-- A hint for tuples of any length accepts tuples of one length whose parts are all narrower. -/
theorem anyLength {hints : List Hint} {item : Hint}
    (wider : ∀ hint ∈ hints, AcceptedBy classes hint item) :
    AcceptedBy classes (.tuple hints) (.tupleOf item) := by
  intro value accepts
  obtain ⟨⟨class_, length⟩, each⟩ := accepts_tuple_iff.mp accepts
  refine .tupleOf class_ fun items seen part member => ?_
  -- There is a hint for every item, as there are as many of both.
  have beside : List.Forall₂ (Accepts classes) hints items :=
    List.forall₂_iff_zip.mpr ⟨length items seen, fun paired => each items seen _ paired⟩
  obtain ⟨hint, listed, accepted⟩ := (Counterparts.of_forall₂ beside).2 part member
  exact wider hint listed part accepted

/-- Tuples of any length are accepted as sequences of the same items. -/
theorem sequence (built : classes.WellBuilt) {item : Hint} :
    AcceptedBy classes (.tupleOf item) (.collection .sequence item) := by
  intro value accepts
  -- The items are the same ones on both sides, and the class of tuples is below that of sequences.
  obtain ⟨class_, each⟩ := accepts_tupleOf_iff.mp accepts
  have above := NextWider.tuple.descends built
  exact .collection (built.descends_trans class_ above) each

/-- A literal accepts what another does if it names an equal value for each of the other's. -/
theorem literal {values values' : List Value}
    (offered : ∀ value ∈ values, value ∈ values' ∨ ∃ other ∈ values', value.equal other = true) :
    AcceptedBy classes (.literal values) (.literal values') := by
  intro value accepts
  obtain ⟨named, member, same⟩ := accepts_literal_iff.mp accepts
  -- A named value that is left out is stood in for by an equal one, which is literally as equal.
  rcases offered named member with kept | ⟨other, listed, equal⟩
  · exact .literal kept same
  · exact .literal listed ((Value.isLiterally_congr equal value).symm.trans same)

end AcceptedBy

/-- What is narrower accepts no more. -/
theorem Narrower.accepts (built : classes.WellBuilt) {hint wide : Hint}
    (narrower : Narrower classes hint wide) : AcceptedBy classes hint wide := by
  -- Each way in which a hint can be made wider keeps what is accepted, and so do all in a row.
  induction narrower with
  | same => exact fun _ accepts => accepts
  | trans _ _ lower upper => exact fun value accepts => upper value (lower value accepts)
  | any => exact fun _ _ => .any
  | instanceOf below => exact .instanceOf built below
  | item _ wider => exact .item wider
  -- Parts at the same places go over to wider ones together.
  | items length _ wider =>
    exact .items (List.forall₂_iff_zip.mpr ⟨length, fun member => wider _ member⟩)
  | everyItem _ wider => exact .everyItem wider
  | entry _ _ keys values => exact .entry keys values
  | bases length _ wider =>
    exact .bases (List.forall₂_iff_zip.mpr ⟨length, fun member => wider _ member⟩)
  | collection wider => exact .collection built wider
  | mapping wider => exact .mapping built wider
  | anyLength _ wider => exact .anyLength wider
  | sequence => exact .sequence built
  | origin => exact fun _ accepts => .instanceOf (accepts_generic_iff.mp accepts).1
  | base member => exact fun _ accepts => (accepts_generic_iff.mp accepts).2 _ member
  | member member => exact fun _ accepts => .union member accepts
  | union _ wider =>
    -- The union accepts by one of its members, each of which is narrower.
    intro value accepts
    obtain ⟨member, listed, accepted⟩ := accepts_union_iff.mp accepts
    exact wider member listed value accepted
  | literal offered => exact .literal offered

end Hint

namespace Query

/-- Over a hierarchy built by definitions, a known value that fits a checkable hint fits every
checkable hint that is wider: if there is no cause under the one, there is none under the other. -/
theorem cause_eq_none_of_narrower (query : Query) {wide : Hint} (built : query.classes.WellBuilt)
    (known : query.value.Known query.classes) (checkable : query.hint.Checkable query.classes)
    (checkableWide : wide.Checkable query.classes)
    (narrower : query.hint.Narrower query.classes wide) (fits : query.cause = .ok none) :
    (query.about wide).cause = .ok none := by
  -- Both checks decide acceptance, and acceptance is handed on to the wider hint.
  have decided := Hint.decides_check built checkable known
  have decidedWide := Hint.decides_check built checkableWide known
  have accepts := decided.eq_fits_iff.mp (cause_eq_none_iff.mp fits)
  have acceptsWide := narrower.accepts built query.value accepts
  exact cause_eq_none_iff.mpr (decidedWide.eq_fits_iff.mpr acceptsWide)

/-- Stored frames, of a class below lists that is defined in two steps, under a hint that is wider
at every depth: in the forms around them, in the class of the keys, and in the values of the
literal. -/
theorem cause_eq_none_of_narrower_stored_frames :
    let classes := ((Hierarchy.initial.define "Stack" [.list]).2.define "Frames" [⟨19⟩]).2
    let value : Value := .dict [(.str "a", .container .tuple [.itemsObject ⟨20⟩ [.int 1]])]
    let frames : Hint := .generic ⟨20⟩ [.collection .list (.literal [.int 1])]
    let hint : Hint := .mapping .dict (.instanceOf .str) (.tuple [frames])
    let member : Hint := .collection .sequence (.literal [.int 2, .int 1])
    let wide : Hint := .mapping .mapping (.instanceOf .sequence)
      (.collection .sequence (.union [.nothing, member]))
    let query : Query := ⟨value, hint, "", "f() parameter x", classes, {}⟩
    classes.WellBuilt ∧ value.Known classes ∧ hint.Checkable classes ∧ wide.Checkable classes ∧
      hint.Narrower classes wide ∧ query.cause = .ok none ∧
      (query.about wide).cause = .ok none := by
  -- The class of the object is known, and so is all that can be seen inside.
  intro classes value frames hint member wide query
  have built : classes.WellBuilt :=
    .define "Frames" (.define "Stack" .initial (by decide)) (by decide)
  have object : (Value.itemsObject ⟨20⟩ [.int 1]).Known classes :=
    .intro rfl (by simpa [Value.parts, Value.Known] using Value.known_int classes 1)
  have tuple : (Value.container .tuple [.itemsObject ⟨20⟩ [.int 1]]).Known classes :=
    .intro trivial (by simpa [Value.parts, Value.Known] using object)
  have known : value.Known classes :=
    .intro trivial (by simpa [value, Value.parts] using ⟨Value.known_str classes "a", tuple⟩)
  -- Every form that occurs is explained.
  have class_ : ∀ ref, (Hint.instanceOf ref).Checkable classes := fun _ => .leaf trivial rfl
  have literal : ∀ values, (Hint.literal values).Checkable classes := fun _ => .leaf trivial rfl
  have items : ∀ {form item}, item.Checkable classes →
      (Hint.collection form item).Checkable classes := by
    intro form item each
    exact .intro trivial (by simpa [Hint.parts, Hint.Checkable] using each)
  have entries : ∀ {form key stored}, key.Checkable classes → stored.Checkable classes →
      (Hint.mapping form key stored).Checkable classes := by
    intro form key stored keys values
    exact .intro trivial (by simpa [Hint.parts] using ⟨keys, values⟩)
  have generic : frames.Checkable classes :=
    .intro trivial (by simpa [frames, Hint.parts, Hint.Checkable] using items (literal _))
  have union : (Hint.union [.nothing, member]).Checkable classes :=
    .intro trivial (by simpa [Hint.parts] using ⟨class_ _, items (literal _)⟩)
  have checkable : hint.Checkable classes :=
    entries (class_ _) (.intro trivial (by simpa [Hint.parts, Hint.Checkable] using generic))
  have checkableWide : wide.Checkable classes := entries (class_ _) (items union)
  -- The hint is made wider from the inside to the outside.
  have named : (Hint.literal [.int 1]).Narrower classes (.literal [.int 2, .int 1]) :=
    .literal (by simp)
  have list : frames.Narrower classes (.collection .list (.literal [.int 1])) := .base (by simp)
  have sequence : frames.Narrower classes member :=
    .trans list (.trans (.collection rfl) (.trans (.collection rfl) (.item named)))
  have offered : frames.Narrower classes (.union [.nothing, member]) :=
    .trans sequence (.member (by simp))
  have stored : (Hint.tuple [frames]).Narrower classes
      (.collection .sequence (.union [.nothing, member])) :=
    .trans (.anyLength (by simpa using offered)) .sequence
  have narrower : hint.Narrower classes wide :=
    .trans (.entry (.instanceOf (by decide +kernel)) stored)
      (.trans (.mapping rfl) (.mapping rfl))
  have fits : query.cause = .ok none := by decide +kernel
  exact ⟨built, known, checkable, checkableWide, narrower, fits,
    cause_eq_none_of_narrower query built known checkable checkableWide narrower fits⟩

end Query

end Misfit
