import Misfit.Hint.Union
import Misfit.Proofs.Hint.Equality
import Misfit.Proofs.Query.Union
import Misfit.Proofs.Query.Vacuous

/-! A union brought into its plain form has the verdict of the union that was written. -/

namespace Misfit

namespace Query

variable {ε : Type} {word : Obstacle → ε}

/-- A union has the verdict of its members as alternatives. -/
theorem verdict_check_union (query : Query) (members : List Hint) :
    ((Hint.union members).check query.classes query.value).verdict word =
      (Finding.anyOf (members.map query.findMember)).verdict word := by
  -- What the causes of the members are put together to is not part of the verdict.
  rw [Hint.check, Hint.checkMembers_eq_anyOf, Finding.verdict_map]
  rfl

/-- A member has the verdict of what it brings into the union, as alternatives in its place. -/
theorem verdict_findMember (query : Query) (hint : Hint) :
    (query.findMember hint).verdict word =
      (Finding.anyOf (hint.alternatives.map query.findMember)).verdict word := by
  -- A union is never vacuous, and any other hint is its own lone alternative.
  cases hint with
  | union members => exact query.verdict_check_union members
  | _ => exact (Finding.verdict_anyOf_singleton _).symm

/-- Equal hints are misfits as members of a union together. -/
theorem findMember_eq_misfit_of_equal (query : Query) {later earlier : Hint}
    (same : (later == earlier) = true)
    (misfit : ∃ reason, query.findMember earlier = .misfit reason) :
    ∃ reason, query.findMember later = .misfit reason := by
  -- Equal hints are left out together, and where they are asked they have one verdict.
  have together : later.isVacuous = earlier.isVacuous := (Hint.equal_iff.mp same).1.isVacuous_eq
  have verdicts : (query.findMember later).verdict Obstacle.kind =
      (query.findMember earlier).verdict Obstacle.kind :=
    Finding.verdict_unlessVacuous_congr together
      (Hint.verdict_check_of_equal same query.classes query.value)
  exact Finding.verdict_eq_misfit.mp (verdicts.trans (Finding.verdict_eq_misfit.mpr misfit))

/-- A union has the verdict of all that its members bring into it, each only once. -/
theorem verdict_check_union_eq_plain (query : Query) (members : List Hint) :
    ((Hint.union members).check query.classes query.value).verdict word =
      (Finding.anyOf ((members.flatMap Hint.alternatives).eraseDups.map query.findMember)).verdict
        word := by
  -- What is left out equals a hint that is tried before it, and is tried only if that is a misfit.
  rw [Finding.verdict_anyOf_eraseDups fun _ _ => query.findMember_eq_misfit_of_equal,
    List.map_flatMap, Finding.verdict_anyOf_flatMap, verdict_check_union]
  apply Finding.verdict_anyOf_congr
  rw [List.forall₂_map_left_iff, List.forall₂_map_right_iff, List.forall₂_same]
  exact fun member _ => query.verdict_findMember member

/-- A hint has the verdict that it has as a member of a union exactly unless the value is turned
away, for as a member it would not be asked. -/
theorem verdict_check_eq_findMember_iff (query : Query) (hint : Hint) :
    (hint.check query.classes query.value).verdict word = (query.findMember hint).verdict word ↔
      ¬hint.TurnsAway query.classes query.value := by
  -- Only a vacuous hint is treated differently as a member, and then it fits unasked.
  rw [findMember, Finding.unlessVacuous]
  split
  · next vacuous =>
    rw [← Hint.check_eq_fits_of_isVacuous vacuous]
    exact Finding.verdict_eq_fits
  · next asks =>
    -- Only the root turns values away that it is not asked about, and it is vacuous.
    have notAway : ¬hint.TurnsAway query.classes query.value := by
      rintro ⟨rfl, _⟩
      exact asks rfl
    exact iff_of_true rfl notAway

/-- A union in its plain form has the verdict of the union exactly unless only the root is left of
it, which turns the value away. -/
theorem verdict_check_unionOf_iff (query : Query) (members : List Hint) :
    ((Hint.unionOf members).check query.classes query.value).verdict word =
        ((Hint.union members).check query.classes query.value).verdict word ↔
      ¬(Hint.unionOf members).TurnsAway query.classes query.value := by
  -- What is left is a union of its own, or one hint that is now asked alone.
  rw [verdict_check_union_eq_plain, Hint.unionOf]
  split
  · next only lone =>
    rw [lone, List.map_singleton, Finding.verdict_anyOf_singleton]
    exact query.verdict_check_eq_findMember_iff only
  · exact iff_of_true (query.verdict_check_union _) fun away => nomatch away.1

/-- Bringing a union into its plain form changes no verdict about a value of a defined class: the
value fits both, or neither, or both lead to the same failure. -/
theorem verdict_unionOf (query : Query) (members : List Hint)
    (defined : query.classes.contains query.value.classRef = true) :
    (query.about (.unionOf members)).verdict = (query.about (.union members)).verdict := by
  rw [verdict_eq, verdict_eq]
  apply (query.verdict_check_unionOf_iff members).mpr
  -- There is a place for the class of the value, so nothing turns it away.
  rintro ⟨_, _, undefined⟩
  rw [defined] at undefined
  cases undefined

/-- Of two literals of zero, in both its signs, the second is left out; two of what is not a number
stay, for it is not equal to itself. The value fits none of them, and so the unknown name behind
them is asked about, once or twice nested. -/
theorem verdict_unionOf_nested_literals :
    let notANumber : Value := .float ⟨0x7ff8000000000000⟩
    let query : Query := ⟨notANumber, .any, "", "f() parameter x", .initial, {}⟩
    let members : List Hint :=
      [.union [.literal [.float ⟨0⟩], .literal [notANumber]],
        .union [.literal [notANumber], .union [], .literal [.float ⟨0x8000000000000000⟩]],
        .forwardRef "Missing"]
    query.classes.contains query.value.classRef = true ∧
      (query.about (.unionOf members)).verdict = (query.about (.union members)).verdict ∧
      (query.about (.union members)).verdict =
        .error (.unresolvedName "f() parameter x" "Missing") := by
  -- The class of the value is predefined, and so the theorem applies.
  intro notANumber query members
  exact ⟨by decide, verdict_unionOf query members (by decide), by decide +kernel⟩

end Query

end Misfit
