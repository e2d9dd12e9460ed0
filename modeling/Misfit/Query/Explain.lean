import Misfit.Hierarchy.Derives
import Misfit.Hint.Depth
import Misfit.Query.Basic
import Misfit.Value.Equality

/-! What each explainer answers to a query, by way of further queries that it makes out of it. -/

namespace Misfit

/-- The answer to a query: the cause of the misfit in words, nothing if the value fits, or why that
cannot be told. -/
abbrev Answer := Except Failure (Option String)

namespace Answer

/-- A further question, asked only where there is no cause so far. -/
@[inline] def andThen (answer : Answer) (next : Unit → Answer) : Answer :=
  match answer with
  | .ok none => next ()
  | settled => settled

/-- Puts a cause into other words. -/
@[inline] def reword (words : String → String) (answer : Answer) : Answer :=
  match answer with
  | .ok (some cause) => .ok (some (words cause))
  | settled => settled

/-- A question that is left out where the hint asks nothing. -/
@[inline] def unlessVacuous (hint : Hint) (answer : Unit → Answer) : Answer :=
  if hint.isVacuous then .ok none else answer ()

/-- The answer at the first item with a cause or a failure, in the order of the items. -/
def first {α : Type} (ask : α → Answer) : List α → Answer
  | [] => .ok none
  | item :: rest => (ask item).andThen fun _ => first ask rest

end Answer

/-- A direct part of a hint. -/
abbrev Hint.Part (hint : Hint) : Type := { part : Hint // part ∈ hint.parts }

namespace Query

/-- How an explainer has its further queries answered: each is about a hint that is nested less deep
than that of the query which it is made out of. -/
abbrev Asking (query : Query) : Type :=
  (inner : Query) → inner.hint.depth < query.hint.depth → Answer

section

variable (query : Query)

/-- The words for a value that is not what was asked for. -/
def mismatch (expected : Expectation) : String :=
  query.introduction ++ " " ++ expected.text query.classes query.style

/-- The cause of a misfit of a part, in words about the whole value. -/
def within (step : Step) (cause : String) : String :=
  query.introduction ++ " " ++ step.text query.classes query.style ++ " " ++ cause

/-- Asks for an instance of a class, as composite hints do before they look inside the value. -/
@[inline] def askOrigin (ask : query.Asking) (origin : ClassRef)
    (composite : 0 < query.hint.depth) : Answer :=
  ask (query.about (.instanceOf origin)) composite

/-- Asks about a part of the value, under a part of the hint. -/
@[inline] def askPart (ask : query.Asking) (step : Step) (hint : query.hint.Part)
    (part : Value) : Answer :=
  (ask (query.onPair (hint.1, part)) (Hint.depth_part_lt hint.2)).reword (query.within step)

/-- A plain class asks for its instances, and makes no further query. -/
def explainClass : Answer :=
  match query.hint with
  | .instanceOf ref =>
    if query.classes.derives query.value.classRef ref then .ok none
    else .ok (some (query.mismatch (.instanceOf [ref])))
  | _ => .error query.unknownForm

/-- The value has to be a class object, and then to descend from the class. -/
def explainSubclass : Answer :=
  match query.hint with
  | .subclassOf ref =>
    match query.value with
    | .classObject child =>
      if query.classes.derives child ref then .ok none
      else .ok (some (query.mismatch (.subclassOf ref)))
    | _ => .ok (some (query.mismatch .classObject))
  | _ => .error query.unknownForm

/-- The value is looked for among the named ones. -/
def explainLiteral : Answer :=
  match query.hint with
  | .literal named =>
    if named.any query.value.isLiterally then .ok none
    else .ok (some (query.mismatch (.oneOf named)))
  | _ => .error query.unknownForm

/-- A name is looked up when it is asked about, and stands for a plain class then. -/
def explainForwardRef (ask : query.Asking) : Answer :=
  match shape : query.hint with
  | .forwardRef name =>
    match query.classes.latest? name with
    | some ref => query.askOrigin ask ref (by simp [shape, Hint.depth])
    | none => .error (.unresolvedName query.label name)
  | _ => .error query.unknownForm

/-- The bases of a generic hint are asked about the value itself, so a cause under one of them needs
no more words. -/
def explainGeneric (ask : query.Asking) : Answer :=
  match shape : query.hint with
  | .generic origin _ =>
    (query.askOrigin ask origin (by simp [shape, Hint.depth])).andThen fun _ =>
      query.hint.parts.attach |> Answer.first fun base =>
        ask (query.about base.1) (Hint.depth_part_lt base.2)
  | _ => .error query.unknownForm

/-- The items of a collection are asked about in turn, and told of by position where positions mean
something. -/
def explainCollection (ask : query.Asking) : Answer :=
  match shape : query.hint with
  | .collection form item =>
    (query.askOrigin ask form.origin (by simp [shape, Hint.depth])).andThen fun _ =>
      Answer.unlessVacuous item fun _ =>
        match query.value.items? with
        -- There is nothing to blame on a value whose items cannot be seen.
        | none => .ok none
        | some items => items.zipIdx |> Answer.first fun (part, position) =>
          let step := if form.hasPositions then .index position else .item
          query.askPart ask step ⟨item, by simp [shape, Hint.parts]⟩ part
  | _ => .error query.unknownForm

/-- A tuple under hints for each of its items is asked for its length before any item. -/
def explainTuple (ask : query.Asking) : Answer :=
  match shape : query.hint with
  | .tuple hints =>
    (query.askOrigin ask .tuple (by simp [shape, Hint.depth])).andThen fun _ =>
      match query.value.items? with
      | none => .ok none
      | some items =>
        if hints.isEmpty then
          if items.isEmpty then .ok none else .ok (some (query.mismatch .emptyTuple))
        else if items.length ≠ hints.length then
          .ok (some (query.mismatch (.length items.length hints.length)))
        else
          query.hint.parts.attach.zip items.zipIdx |> Answer.first fun (hint, part, position) =>
            Answer.unlessVacuous hint.1 fun _ => query.askPart ask (.index position) hint part
  | .tupleOf item =>
    (query.askOrigin ask .tuple (by simp [shape, Hint.depth])).andThen fun _ =>
      match query.value.items? with
      | none => .ok none
      | some items =>
        Answer.unlessVacuous item fun _ =>
          items.zipIdx |> Answer.first fun (part, position) =>
            query.askPart ask (.index position) ⟨item, by simp [shape, Hint.parts]⟩ part
  | _ => .error query.unknownForm

/-- Of each entry of a mapping the key is asked about before the value that is stored under it. -/
def explainMapping (ask : query.Asking) : Answer :=
  match shape : query.hint with
  | .mapping form keyHint valueHint =>
    (query.askOrigin ask form.origin (by simp [shape, Hint.depth])).andThen fun _ =>
      if keyHint.isVacuous && valueHint.isVacuous then .ok none
      else
        match query.value.pairs? with
        | none => .ok none
        | some entries => entries |> Answer.first fun (key, stored) =>
          (Answer.unlessVacuous keyHint fun _ =>
            query.askPart ask .key ⟨keyHint, by simp [shape, Hint.parts]⟩ key).andThen fun _ =>
          Answer.unlessVacuous valueHint fun _ =>
            query.askPart ask (.valueAt key) ⟨valueHint, by simp [shape, Hint.parts]⟩ stored
  | _ => .error query.unknownForm

/-- What is told of the members of a union when the value fits none of them: which of them are plain
classes, and the causes under all others. -/
structure Told where
  refs : List ClassRef
  causes : List String

/-- Plain classes are told of by their names, so the cause under one of them is dropped. -/
def Told.add (member : Hint) (cause : String) (told : Told) : Told :=
  match member with
  | .instanceOf ref => { told with refs := ref :: told.refs }
  | _ => { told with causes := cause :: told.causes }

/-- Asks about members of a union in turn. Nothing is told of them once the value fits one, and the
first failure is the answer for all of them. -/
def tellMembers (ask : query.hint.Part → Answer) :
    List query.hint.Part → Except Failure (Option Told)
  | [] => .ok (some ⟨[], []⟩)
  | member :: rest =>
    if member.1.isVacuous then .ok none
    else
      match ask member with
      | .ok none => .ok none
      | .ok (some cause) => (tellMembers ask rest).map (Option.map (Told.add member.1 cause))
      | .error failure => .error failure

/-- The lines that the report of a union lists: its plain classes are told of together, before all
other members. -/
def lines (told : Told) : List String :=
  (if told.refs.isEmpty then [] else [query.mismatch (.instanceOf told.refs)]) ++ told.causes

/-- The report of a union, from the lines that it lists. A line that is alone needs no bullet. -/
def report (listed : List String) : String :=
  match listed with
  | [] => query.introduction ++ " not any member of empty union"
  | [only] => only
  | several =>
    bulleted
      (query.introduction ++ " not any member of " ++ query.hint.text query.classes ++ ":")
      (query.indent ++ query.style.bulletIndent) several

/-- The members of a union are asked about the value itself, for causes that are worded one level
deeper. -/
def explainUnion (ask : query.Asking) : Answer :=
  match query.hint with
  | .union _ =>
    let askMember (member : query.hint.Part) : Answer :=
      ask (query.forMember member.1) (Hint.depth_part_lt member.2)
    (query.tellMembers askMember query.hint.parts.attach).map
      (Option.map fun told => query.report (query.lines told))
  | _ => .error query.unknownForm

end

end Query

/-- The answer of one explainer, which refuses hints of forms that are not its own; only that of the
hint for any value accepts every hint. -/
def Explainer.explain (explainer : Explainer) (query : Query) (ask : query.Asking) : Answer :=
  match explainer with
  | .any => .ok none
  | .plainClass => query.explainClass
  | .forwardRef => query.explainForwardRef ask
  | .generic => query.explainGeneric ask
  | .literal => query.explainLiteral
  | .mapping => query.explainMapping ask
  | .collection => query.explainCollection ask
  | .subclass => query.explainSubclass
  | .tuple => query.explainTuple ask
  | .union => query.explainUnion ask

end Misfit
