import Misfit.Hierarchy.Basic

/-! Descent of one class from another, found by a walk that visits each class at most once. -/

namespace Misfit

namespace Hierarchy

/-- Whether `target` is a base of a pending class, or of a class that unvisited bases lead to. -/
def reaches (classes : Hierarchy) (target : ClassRef) (unvisited : List ClassRef) :
    List ClassRef → Bool
  | [] => false
  | ref :: pending =>
    let bases := classes.basesOf ref
    -- Bases met for the first time are visited next, and no more after that.
    bases.contains target ||
      classes.reaches target (unvisited.filter fun next => !bases.contains next)
        (unvisited.filter bases.contains ++ pending)
termination_by pending => unvisited.length + pending.length
decreasing_by
  -- One pending class is spent, and the bases only move from one list to the other.
  have split := List.length_eq_countP_add_countP (classes.basesOf ref).contains (l := unvisited)
  simp only [List.countP_eq_length_filter, Bool.not_eq_true, Bool.decide_eq_false] at split
  simp only [List.unattach_filter, List.unattach_attach, List.length_append, List.length_cons]
  omega

/-- Whether a class is another or descends from it. Every defined class descends from the root. -/
def derives (classes : Hierarchy) (child parent : ClassRef) : Bool :=
  child == parent ||
    if parent == ClassRef.object then classes.contains child
    else classes.reaches parent classes.refs [child]

end Hierarchy

end Misfit
