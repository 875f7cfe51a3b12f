/-
  RulePlan.Tree.Basic — condition trees.

  A condition compares a field by an operator with a submitted value. Conditions are
  combined: all of the children hold, or any of them. The root of a tree is always a
  combination; a tree that is one combination has depth 1.
-/

import RulePlan.FormValue

namespace RulePlan

inductive Aggregator where
  | all
  | any
  deriving DecidableEq, Repr

namespace Aggregator

def name : Aggregator → String
  | .all => "all"
  | .any => "any"

/-- Neither letter case, for ASCII letters, nor blanks around the name count. -/
def ofName? (name : String) : Option Aggregator :=
  let letters := String.ofList ((Text.strip name.toList).map Char.toLower)
  if letters = "all" then some .all else if letters = "any" then some .any else none

end Aggregator

/-- The field and the operator are kept as they were written. -/
structure Condition where
  field : String
  operator : String
  value : FormValue
  deriving DecidableEq, Repr

inductive Rule where
  | condition (c : Condition)
  | combine (aggregator : Aggregator) (children : List Rule)
  deriving Repr

structure Tree where
  aggregator : Aggregator := .all
  children : List Rule := []
  deriving Repr

def Tree.toRule (t : Tree) : Rule := .combine t.aggregator t.children

/-- A condition alone is the one child of an `all`. -/
def Rule.toTree : Rule → Tree
  | .condition c => ⟨.all, [.condition c]⟩
  | .combine aggregator children => ⟨aggregator, children⟩

/-! ## Size -/

namespace Rule

mutual

/-- The combinations on the longest way down; a condition has none. -/
def depth : Rule → Nat
  | .condition _ => 0
  | .combine _ children => 1 + deepest children

def deepest : List Rule → Nat
  | [] => 0
  | r :: rest => max (depth r) (deepest rest)

end

mutual

def conditionCount : Rule → Nat
  | .condition _ => 1
  | .combine _ children => conditionCounts children

def conditionCounts : List Rule → Nat
  | [] => 0
  | r :: rest => conditionCount r + conditionCounts rest

end

end Rule

def Tree.depth (t : Tree) : Nat := t.toRule.depth

def Tree.conditionCount (t : Tree) : Nat := t.toRule.conditionCount

def Tree.isEmpty (t : Tree) : Bool := t.children.isEmpty

end RulePlan
