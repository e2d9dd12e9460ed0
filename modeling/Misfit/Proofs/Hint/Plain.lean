import Misfit.Hint.Union
import Misfit.Proofs.Hint.Equality

/-! The plain form of unions: what is built has it, and building a union of unions in it is building
one union of all members. -/

namespace Misfit

namespace Hint

/-- What the members of a union in its plain form are: none of them is a union, no two of them are
equal, and there is not just one. -/
structure PlainMembers (members : List Hint) : Prop where
  flat : ∀ member ∈ members, ∀ inner, member ≠ .union inner
  distinct : Distinct members
  notOne : members.length ≠ 1

/-- Every union in a hint, at every depth, is in its plain form. -/
def Plain (hint : Hint) : Prop :=
  Everywhere parts (fun inner => ∀ members, inner = .union members → PlainMembers members) hint

/-- A hint all of whose unions were brought into their plain form when they were built. -/
inductive Built : Hint → Prop where
  | form {hint : Hint} (notUnion : ∀ members, hint ≠ .union members)
      (each : ∀ part ∈ hint.parts, Built part) : Built hint
  | union {hints : List Hint} (each : ∀ hint ∈ hints, Built hint) : Built (unionOf hints)

/-- What a plain hint brings into a union is plain, and no union. -/
theorem Plain.alternative {hint : Hint} (plain : hint.Plain) {member : Hint}
    (brought : member ∈ hint.alternatives) :
    member.Plain ∧ ∀ inner, member ≠ .union inner := by
  -- A union brings its members, none of which is a union again.
  rcases hint.union_or_not with ⟨members, rfl⟩ | notUnion
  · exact ⟨plain.part brought, (plain.here members rfl).flat member brought⟩
  · -- A hint that is no union brings itself.
    have alone : hint.alternatives = [hint] := by
      cases hint with
      | union members => exact absurd rfl (notUnion members)
      | _ => rfl
    rw [alone, List.mem_singleton] at brought
    rw [brought]
    exact ⟨plain, notUnion⟩

section Union

variable {hints : List Hint} (plain : ∀ hint ∈ hints, hint.Plain)

include plain

/-- The members that are left in a union of plain hints are plain, and no unions. -/
theorem plain_of_mem_eraseDups : ∀ member ∈ (hints.flatMap alternatives).eraseDups,
    member.Plain ∧ ∀ inner, member ≠ .union inner := by
  -- What is left has been brought by one of the hints.
  intro member kept
  obtain ⟨hint, listed, brought⟩ := List.mem_flatMap.mp (mem_of_mem_eraseDups kept)
  exact (plain hint listed).alternative brought

/-- A union of plain hints is plain. -/
theorem plain_unionOf : (unionOf hints).Plain := by
  -- A lone member stands for itself, and several are distinct and no unions.
  have left := plain_of_mem_eraseDups plain
  unfold unionOf
  split
  · next only lone =>
    exact (left only (by simp [lone])).1
  · next members several =>
    refine .intro ?_ fun member kept => (left member kept).1
    rintro _ ⟨rfl⟩
    refine ⟨fun member kept => (left member kept).2, distinct_eraseDups _, ?_⟩
    intro one
    -- A lone member would have stood for itself.
    obtain ⟨only, lone⟩ := List.length_eq_one_iff.mp one
    exact several only lone

/-- A union of plain hints brings those members into another union that are left in it. -/
theorem alternatives_unionOf :
    (unionOf hints).alternatives = (hints.flatMap alternatives).eraseDups := by
  unfold unionOf
  split
  · next only lone =>
    -- A lone member is no union, so it brings itself.
    have notUnion := (plain_of_mem_eraseDups plain only (by simp [lone])).2
    rw [lone]
    cases only with
    | union members => exact absurd rfl (notUnion members)
    | _ => rfl
  · rfl

end Union

/-- Unions with the same members, duplicates apart, are the same. -/
theorem unionOf_congr {hints others : List Hint}
    (same : (hints.flatMap alternatives).eraseDups = (others.flatMap alternatives).eraseDups) :
    unionOf hints = unionOf others := by
  -- The members without their duplicates are all that a union is built from.
  unfold unionOf
  rw [same]

/-- The union of two unions of plain hints is the union of all of them. -/
theorem unionOf_pair {first second : List Hint} (plain : ∀ hint ∈ first, hint.Plain)
    (plain' : ∀ hint ∈ second, hint.Plain) :
    unionOf [unionOf first, unionOf second] = unionOf (first ++ second) := by
  apply unionOf_congr
  -- Duplicates go within each of the two unions, and then between them.
  simp only [List.flatMap_cons, List.flatMap_nil, List.append_nil, List.flatMap_append,
    alternatives_unionOf plain, alternatives_unionOf plain']
  rw [eraseDups_append_left, eraseDups_append_right]

/-- The union of one plain hint is that hint. -/
theorem unionOf_singleton {hint : Hint} (plain : hint.Plain) : unionOf [hint] = hint := by
  -- A union brings its own members again, and every other hint just itself.
  rcases hint.union_or_not with ⟨members, rfl⟩ | notUnion
  · obtain ⟨_, distinct, notOne⟩ := plain.here members rfl
    simp only [unionOf, List.flatMap_cons, List.flatMap_nil, List.append_nil, alternatives,
      distinct.eraseDups_eq]
    -- Of members in their plain form there is not just one.
    split
    · exact absurd rfl notOne
    · rfl
  · cases hint with
    | union members => exact absurd rfl (notUnion members)
    | _ => rfl

/-- What is built is plain. -/
theorem Built.plain {hint : Hint} (built : hint.Built) : hint.Plain := by
  -- Each way to build a hint makes a plain one of plain ones.
  induction built with
  | form notUnion _ ih => exact .intro (fun members same => absurd same (notUnion members)) ih
  | union _ ih => exact plain_unionOf ih

/-- Building unions of plain hints makes plain hints, so that all that is built is plain. It makes
no difference whether the members of a union are gathered at once or in two unions, and so none in
which way three hints are put together; a plain hint alone is its own union. -/
theorem unionOf_laws :
    (∀ hints : List Hint, (∀ hint ∈ hints, hint.Plain) → (unionOf hints).Plain) ∧
      (∀ hint : Hint, hint.Built → hint.Plain) ∧
      (∀ first second : List Hint, (∀ hint ∈ first, hint.Plain) → (∀ hint ∈ second, hint.Plain) →
        unionOf [unionOf first, unionOf second] = unionOf (first ++ second)) ∧
      (∀ a b c : Hint, a.Plain → b.Plain → c.Plain →
        unionOf [unionOf [a, b], c] = unionOf [a, unionOf [b, c]]) ∧
      ∀ hint : Hint, hint.Plain → unionOf [hint] = hint := by
  -- All but one of the laws are known, and that one is about three hints.
  refine ⟨fun _ => plain_unionOf, fun _ => Built.plain, fun _ _ => unionOf_pair, ?_,
    fun _ => unionOf_singleton⟩
  intro a b c plainA plainB plainC
  -- Either way the three are gathered one after the other.
  have front : ∀ hint ∈ [a, b], hint.Plain := by simp [plainA, plainB]
  have last : ∀ hint ∈ [c], hint.Plain := by simp [plainC]
  have head : ∀ hint ∈ [a], hint.Plain := by simp [plainA]
  have back : ∀ hint ∈ [b, c], hint.Plain := by simp [plainB, plainC]
  calc unionOf [unionOf [a, b], c]
    _ = unionOf [unionOf [a, b], unionOf [c]] := by rw [unionOf_singleton plainC]
    _ = unionOf [a, b, c] := unionOf_pair front last
    _ = unionOf [unionOf [a], unionOf [b, c]] := (unionOf_pair head back).symm
    _ = unionOf [a, unionOf [b, c]] := by rw [unionOf_singleton plainA]

/-- What is not a number stays in the union as often as it is brought there, zero only once in
either sign, and of the empty union nothing. -/
theorem unionOf_laws_nested_literals :
    let notANumber : Hint := .literal [.float ⟨0x7ff8000000000000⟩]
    let zero : Hint := .literal [.float ⟨0⟩]
    let negativeZero : Hint := .literal [.float ⟨0x8000000000000000⟩]
    let numbers : Hint := .union [notANumber, zero]
    let anyList : Hint := .collection .list .any
    let first : List Hint := [numbers, .union [], anyList]
    let second : List Hint := [anyList, .union [negativeZero, notANumber]]
    numbers.Built ∧ (∀ hint ∈ first, hint.Plain) ∧ (∀ hint ∈ second, hint.Plain) ∧
      (unionOf first).Plain ∧ unionOf [unionOf first, unionOf second] = unionOf (first ++ second) ∧
      unionOf [unionOf [numbers, .union []], anyList] =
        unionOf [numbers, unionOf [.union [], anyList]] ∧
      unionOf [numbers] = numbers ∧
      unionOf (first ++ second) = .union [notANumber, zero, anyList, notANumber] := by
  intro notANumber zero negativeZero numbers anyList first second
  obtain ⟨plainUnion, plainOfBuilt, pair, chain, alone⟩ := unionOf_laws
  have literal : ∀ values, (Hint.literal values).Built :=
    fun values => .form (by simp) (by simp [parts])
  have any : Hint.any.Built := .form (by simp) (by simp [parts])
  -- The unions among the members are what is built of their own members.
  have built : (unionOf [notANumber, zero]).Built := .union (by simp [notANumber, zero, literal])
  have built' : (unionOf [negativeZero, notANumber]).Built :=
    .union (by simp [negativeZero, notANumber, literal])
  have numbersPlain : numbers.Plain := plainOfBuilt _ built
  have numbersPlain' : (Hint.union [negativeZero, notANumber]).Plain := plainOfBuilt _ built'
  have emptyPlain : (Hint.union []).Plain := plainUnion [] (by simp)
  have listPlain : anyList.Plain :=
    plainOfBuilt _ (.form (by simp [anyList]) (by simpa [anyList, parts] using any))
  have plain : ∀ hint ∈ first, hint.Plain := by simp [first, numbersPlain, emptyPlain, listPlain]
  have plain' : ∀ hint ∈ second, hint.Plain := by simp [second, numbersPlain', listPlain]
  exact ⟨built, plain, plain', plainUnion first plain, pair first second plain plain',
    chain numbers (.union []) anyList numbersPlain emptyPlain listPlain, alone numbers numbersPlain,
    by rfl⟩

end Hint

end Misfit
