/-
  RulePlan.Compile — from condition trees to filter plans.

  Below an `all`, each predicate of a condition child becomes a group of its own. Below
  an `any`, the predicates that may share a group are gathered into one, which follows
  the groups of all children; the others stand alone. Combinations hand over their
  groups as they are, so an `all` below an `any` is not distributed into it. Conditions
  without predicates and combinations below the depth limit are left out and reported.
-/

import RulePlan.Condition

namespace RulePlan

/-- The depth limit unless the settings give another; the root has depth 1. -/
def defaultMaxDepth : Nat := 32

/-- What a node hands to its parent: predicates that may join a shared group, and finished groups. -/
structure Contribution where
  candidates : List Predicate := []
  groups : List Group := []

structure Compiled where
  plan : Plan
  dropped : List Dropped
  deriving DecidableEq, Repr

/-- The field under which a dropped combination is reported. -/
def subtreeField : String := "*"

namespace Aggregator

/-- The candidates of a child that get a group of their own. -/
def apart : Aggregator → List Predicate → List Predicate
  | .all, candidates => candidates
  | .any, candidates => candidates.filter (!·.comparison.mayShare)

/-- The candidates of a child that join the shared group. -/
def shared : Aggregator → List Predicate → List Predicate
  | .all, _ => []
  | .any, candidates => candidates.filter (·.comparison.mayShare)

end Aggregator

namespace Session

/-- The predicates of a condition; if there are none, the session reports why. -/
def candidates (lookup : Lookup) (c : Condition) (s : Session) : List Predicate × Session :=
  match c.expand lookup s with
  | (.ok ps, s) => (ps, s)
  | (.error reason, s) => ([], (s.note (.conditionDropped c.field reason.text)).drop ⟨c.field, reason⟩)

/-- A combination below the limit is left out. -/
def dropSubtree (depth : Nat) (s : Session) : Session :=
  (s.note (.combineBelowLimit depth)).drop ⟨subtreeField, .depthLimit⟩

end Session

namespace Rule

mutual

/-- The contribution of a node that stands in a combination of the given depth. -/
def contribute (lookup : Lookup) (limit : Nat) : Rule → Nat → Session → Contribution × Session
  | .condition c, _, s =>
    let (ps, s) := s.candidates lookup c
    ({ candidates := ps }, s)
  | .combine aggregator children, depth, s =>
    if limit < depth + 1 then ({}, s.dropSubtree (depth + 1))
    else
      let ((groups, bucket), s) := contributeAll lookup limit aggregator children (depth + 1) s
      ({ groups := groups ++ (Group.ofPredicates? bucket).toList }, s)

/-- The groups of the children of a combination, and the predicates of its shared group. -/
def contributeAll (lookup : Lookup) (limit : Nat) (aggregator : Aggregator) :
    List Rule → Nat → Session → (List Group × List Predicate) × Session
  | [], _, s => (([], []), s)
  | r :: rest, depth, s =>
    let (c, s) := contribute lookup limit r depth s
    let ((groups, bucket), s) := contributeAll lookup limit aggregator rest depth s
    (((aggregator.apart c.candidates).map Group.single ++ c.groups ++ groups,
      aggregator.shared c.candidates ++ bucket), s)

end

end Rule

/-- Compiles a tree; the session afterwards tells what was asked for, dropped and noted. -/
def compileIn (lookup : Lookup) (limit : Nat) (t : Tree) (s : Session) : Plan × Session :=
  let (c, s) := t.toRule.contribute lookup limit 0 s
  let plan : Plan := ⟨c.groups⟩
  (plan, s.note (.compiled plan.groups.length plan.predicateCount s.dropped.length s.memo.length))

/-- The plan of a tree and the conditions left out of it. -/
def compile (lookup : Lookup) (limit : Nat) (t : Tree) : Compiled :=
  let (plan, s) := compileIn lookup limit t {}
  ⟨plan, s.dropped⟩

end RulePlan
