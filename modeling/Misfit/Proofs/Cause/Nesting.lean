import Mathlib.Data.List.Chain
import Mathlib.Data.List.Count
import Misfit.Proofs.Cause.Outline
import Misfit.Proofs.Runs

/-! How the bullets of an outline nest: deeper by one level at a time, and never one alone. -/

namespace Misfit

/-- Every depth but the first is below the top level, and deeper than the one before it by one level
at most. -/
def Climbs (depths : List Nat) : Prop :=
  depths.IsChain fun depth next => 0 < next ∧ next ≤ depth + 1

/-- Where depths follow that are deeper than one, at least two of them, before the next that is not,
are deeper by one level. -/
def Branches : List Nat → Prop
  | [] => True
  | depth :: later =>
    let below := later.takeWhile (depth < ·)
    (below ≠ [] → 2 ≤ below.count (depth + 1)) ∧ Branches later

/-- Depths that are moved deeper together climb as before, and the first of them may be below. -/
theorem Climbs.deeper {depths : List Nat} (climbs : Climbs depths) :
    Climbs (depths.map (· + 1)) := by
  -- Each step down or up is as large as before, and no line is at depth zero any more.
  rw [Climbs, List.isChain_map]
  exact climbs.imp fun depth next step => ⟨Nat.succ_pos next, Nat.succ_le_succ step.2⟩

/-- Depths that start right below the top level may follow others. -/
theorem Climbs.append {first second : List Nat} (before : Climbs first) (after : Climbs second)
    (low : ∀ depth ∈ second.head?, depth = 1) : Climbs (first ++ second) := by
  -- Only the step from the last depth to the next one is new.
  refine List.isChain_append.mpr ⟨before, after, ?_⟩
  intro last _ next starts
  have next : next = 1 := low next starts
  omega

/-- Depths that are moved deeper together branch as before. -/
theorem Branches.deeper {depths : List Nat} (branches : Branches depths) :
    Branches (depths.map (· + 1)) := by
  -- By induction on the lines, each of which branches below as it did before.
  induction depths with
  | nil => trivial
  | cons depth later ih =>
    obtain ⟨here, later_branches⟩ := branches
    refine ⟨?_, ih later_branches⟩
    -- The depths below are the same ones, moved deeper, and so are those that are counted.
    have below : (later.map (· + 1)).takeWhile (depth + 1 < ·) =
        (later.takeWhile (depth < ·)).map (· + 1) := by
      rw [List.takeWhile_map]
      simp [Function.comp_def]
    rw [below, List.count_map_of_injective _ _ Nat.succ_injective]
    simpa using here

/-- Depths may be followed by others that start no deeper than any of them. -/
theorem Branches.append {first second : List Nat} (before : Branches first)
    (after : Branches second) (low : ∀ depth ∈ first, ∀ next ∈ second.head?, next ≤ depth) :
    Branches (first ++ second) := by
  -- By induction on the first lines, which are not followed by any that would stand below them.
  induction first with
  | nil => exact after
  | cons depth later ih =>
    obtain ⟨here, later_branches⟩ := before
    refine ⟨?_, ih later_branches fun depth member => low depth (List.mem_cons_of_mem _ member)⟩
    -- What stands below a depth ends before the depths that follow.
    have ends : Ends (fun next => decide (depth < next)) second := by
      intro next starts
      simpa using low depth (by simp) next starts
    rw [List.append_eq, takeWhile_append_of_ends ends]
    exact here

namespace Outline

/-- How deep the headline and the bullets of an outline stand, the headline being at the top. -/
def depths (outline : Outline) : List Nat := 0 :: outline.bullets.map Bullet.depth

/-- The bullets of an outline nest: the first one is right below the headline, each later one is at
most one level deeper than the line before it, and a line with deeper ones below it has at least two
that are one level deeper. -/
structure Nested (outline : Outline) : Prop where
  climbs : Climbs outline.depths
  branches : Branches outline.depths

/-- How deep the lines of outlines stand that are put below a headline. -/
def depthsBelow (outlines : List Outline) : List Nat :=
  outlines.flatMap fun outline => outline.depths.map (· + 1)

/-- Outlines below a headline have their lines one level deeper there. -/
theorem depths_under (headline : String) (outlines : List Outline) :
    (under headline outlines).depths = 0 :: depthsBelow outlines := by
  -- The bullet of an outline stands where its headline does when that is moved deeper.
  simp only [depths, depthsBelow, under, deeper, List.map_flatMap, List.map_cons, List.map_map]
  rfl

/-- The lines of a first outline come before those of the others. -/
theorem depthsBelow_cons (outline : Outline) (rest : List Outline) :
    depthsBelow (outline :: rest) = outline.depths.map (· + 1) ++ depthsBelow rest :=
  -- Outlines are gone through in their order.
  List.flatMap_cons

/-- The first line below a headline is right below it. -/
theorem head_depthsBelow (outlines : List Outline) :
    ∀ depth ∈ (depthsBelow outlines).head?, depth = 1 := by
  -- It is the headline of the first outline below, one level deeper.
  intro depth first
  cases outlines with
  | nil => cases first
  | cons outline rest => simpa [depthsBelow, depths, eq_comm] using first

/-- All lines below a headline are deeper than it. -/
theorem pos_of_mem_depthsBelow {outlines : List Outline} {depth : Nat}
    (member : depth ∈ depthsBelow outlines) : 0 < depth := by
  -- Each depth is one more than some depth inside an outline.
  obtain ⟨outline, _, member⟩ := List.mem_flatMap.mp member
  obtain ⟨inner, _, rfl⟩ := List.mem_map.mp member
  exact Nat.succ_pos inner

/-- Each outline below a headline has its own headline right below that one. -/
theorem length_le_count_depthsBelow (outlines : List Outline) :
    outlines.length ≤ (depthsBelow outlines).count 1 := by
  induction outlines with
  | nil => exact Nat.zero_le _
  | cons outline rest ih =>
    -- The first line of an outline counts, whatever stands below it.
    simp only [depthsBelow_cons, depths, List.map_cons, Nat.zero_add, List.count_append,
      List.count_cons_self, List.length_cons]
    omega

namespace Nested

/-- A headline without bullets nests. -/
theorem plain (headline : String) : (plain headline).Nested where
  -- There is one line, and nothing below it.
  climbs := List.isChain_singleton 0
  branches := ⟨fun below => absurd rfl below, trivial⟩

/-- Words before the headline do not change how the bullets nest. -/
theorem after (words : String) {outline : Outline} (nested : outline.Nested) :
    (outline.after words).Nested where
  -- Depths are those of bullets, and the words come before all of them.
  climbs := nested.climbs
  branches := nested.branches

/-- Outlines that nest do so next to each other as well. -/
theorem depthsBelow {outlines : List Outline} (each : ∀ outline ∈ outlines, outline.Nested) :
    Climbs (depthsBelow outlines) ∧ Branches (depthsBelow outlines) := by
  -- By induction on the outlines, whose lines come one after the other.
  induction outlines with
  | nil => exact ⟨List.isChain_nil, trivial⟩
  | cons outline rest ih =>
    obtain ⟨climbs, branches⟩ := ih fun outline member => each outline (by simp [member])
    have first := each outline (by simp)
    rw [depthsBelow_cons]
    refine ⟨first.climbs.deeper.append climbs (head_depthsBelow rest), ?_⟩
    apply first.branches.deeper.append branches
    -- The next outline starts right below the headline, where no line is higher.
    intro depth member next top
    rw [head_depthsBelow rest next top]
    obtain ⟨inner, _, rfl⟩ := List.mem_map.mp member
    exact Nat.succ_pos inner

/-- At least two outlines that nest do so together below a headline. -/
theorem under (headline : String) {outlines : List Outline} (several : 2 ≤ outlines.length)
    (each : ∀ outline ∈ outlines, outline.Nested) : (under headline outlines).Nested := by
  -- The headline is at depth zero, and the lines below it have these properties already.
  obtain ⟨climbs, branches⟩ := depthsBelow each
  constructor
  · rw [depths_under]
    exact Climbs.append (List.isChain_singleton 0) climbs (head_depthsBelow outlines)
  · rw [depths_under]
    refine ⟨fun _ => ?_, branches⟩
    -- All lines stand below the headline, and each outline brings one at the first level.
    have all : (Outline.depthsBelow outlines).takeWhile (0 < ·) = Outline.depthsBelow outlines := by
      rw [List.takeWhile_eq_self_iff]
      intro depth member
      simpa using pos_of_mem_depthsBelow member
    rw [all]
    exact several.trans (length_le_count_depthsBelow outlines)

end Nested

end Outline

/-- Wherever a cause lists a single alternative, that is a mismatch of the value itself. -/
inductive Cause.Branching : Cause → Prop where
  | mismatch {value : Value} {expected : Expectation} : Branching (.mismatch value expected)
  | within {value : Value} {step : Step} {inner : Cause} (deeper : Branching inner) :
      Branching (.within value step inner)
  | alternatives {value : Value} {members : List Hint} {causes : List Cause}
      (each : ∀ cause ∈ causes, Branching cause)
      (alone : ∀ only, causes = [only] → ∃ value expected, only = .mismatch value expected) :
      Branching (.alternatives value members causes)

/-- The outline of a cause nests if no single alternative has bullets of its own. -/
theorem Cause.Branching.nested {cause : Cause} (branching : cause.Branching) (classes : Hierarchy)
    (style : Style) : (cause.outline classes style).Nested := by
  -- Steps add no level, and alternatives add one only where there are several.
  induction branching with
  | mismatch =>
    rw [outline]
    exact .plain _
  | within _ nested =>
    rw [outline]
    exact nested.after _
  | @alternatives value members causes _ alone each =>
    rw [outline, outlines_eq_map]
    match causes, alone, each with
    | [], _, _ => exact .plain _
    | [only], alone, _ =>
      -- A mismatch has no bullets that could be moved deeper.
      obtain ⟨value, expected, rfl⟩ := alone only rfl
      rw [List.map_singleton, outline]
      exact .plain _
    | first :: second :: rest, _, each =>
      apply Outline.Nested.under
      · simp
      · exact List.forall_mem_map.mpr each

end Misfit
