/-
  RulePlan.Operator — comparisons and the operators of the rule form.

  `Comparison` is what a predicate of a plan does; `Operator` is what the form offers,
  each with its symbol, its label and the comparison it stands for. `comparisonOf`
  gives every symbol a comparison: one that is unknown compares for equality.
-/

import RulePlan.Text.Blank

namespace RulePlan

/-! ## Comparisons -/

inductive Comparison where
  | eq
  | neq
  | gt
  | gte
  | lt
  | lte
  | like
  | nlike
  | oneOf
  | noneOf
  | isNull
  | notNull
  | memberOf
  | notMemberOf
  deriving DecidableEq, Repr

namespace Comparison

def all : List Comparison :=
  [.eq, .neq, .gt, .gte, .lt, .lte, .like, .nlike, .oneOf, .noneOf, .isNull, .notNull, .memberOf, .notMemberOf]

/-- The name of the comparison in the wire form of a plan. -/
def name : Comparison → String
  | .eq => "eq"
  | .neq => "neq"
  | .gt => "gt"
  | .gte => "gte"
  | .lt => "lt"
  | .lte => "lte"
  | .like => "like"
  | .nlike => "nlike"
  | .oneOf => "in"
  | .noneOf => "nin"
  | .isNull => "null"
  | .notNull => "notnull"
  | .memberOf => "finset"
  | .notMemberOf => "nfinset"

def ofName? (name : String) : Option Comparison := all.find? (·.name = name)

theorem ofName?_name (c : Comparison) : ofName? c.name = some c := by
  cases c <;> decide

/-- Several predicates of this comparison may share one group of alternatives. "Does not contain A,
    or does not contain B" holds of nearly every record, so exclusion from a set stays apart. -/
def mayShare (c : Comparison) : Bool := c ≠ .notMemberOf

/-- The operand is a list. -/
def takesList : Comparison → Bool
  | .oneOf | .noneOf | .memberOf | .notMemberOf => true
  | _ => false

/-- The operand is a pattern. -/
def takesPattern : Comparison → Bool
  | .like | .nlike => true
  | _ => false

end Comparison

/-! ## Operators -/

inductive Operator where
  | is
  | isNot
  | atLeast
  | atMost
  | greaterThan
  | lessThan
  | contains
  | notContains
  | oneOf
  | notOneOf
  deriving DecidableEq, Repr

namespace Operator

def all : List Operator :=
  [.is, .isNot, .atLeast, .atMost, .greaterThan, .lessThan, .contains, .notContains, .oneOf, .notOneOf]

def symbol : Operator → String
  | .is => "=="
  | .isNot => "!="
  | .atLeast => ">="
  | .atMost => "<="
  | .greaterThan => ">"
  | .lessThan => "<"
  | .contains => "\x7b\x7d"
  | .notContains => "!\x7b\x7d"
  | .oneOf => "()"
  | .notOneOf => "!()"

def label : Operator → String
  | .is => "is"
  | .isNot => "is not"
  | .atLeast => "equals or greater than"
  | .atMost => "equals or less than"
  | .greaterThan => "greater than"
  | .lessThan => "less than"
  | .contains => "contains"
  | .notContains => "does not contain"
  | .oneOf => "is one of"
  | .notOneOf => "is not one of"

def comparison : Operator → Comparison
  | .is => .eq
  | .isNot => .neq
  | .atLeast => .gte
  | .atMost => .lte
  | .greaterThan => .gt
  | .lessThan => .lt
  | .contains => .like
  | .notContains => .nlike
  | .oneOf => .oneOf
  | .notOneOf => .noneOf

def takesList : Operator → Bool
  | .oneOf | .notOneOf => true
  | _ => false

/-- Blanks around a symbol do not count. -/
def ofSymbol? (symbol : String) : Option Operator :=
  let trimmed := Text.trim symbol
  all.find? (·.symbol = trimmed)

theorem ofSymbol?_symbol (o : Operator) : ofSymbol? o.symbol = some o := by
  cases o <;> decide

end Operator

/-- The comparison of a symbol; an unknown one is `oneOf` for a list operand and `eq` otherwise. -/
def Comparison.resolve (symbol : String) (listOperand : Bool) : Comparison :=
  match Operator.ofSymbol? symbol with
  | some o => o.comparison
  | none => if listOperand then .oneOf else .eq

/-- The comparison of a symbol, which says by itself whether its operand is a list. -/
def comparisonOf (symbol : String) : Comparison :=
  let listOperand := match Operator.ofSymbol? symbol with
    | some o => o.takesList
    | none => false
  Comparison.resolve symbol listOperand

/-- The label of a symbol; an unknown one stands for itself. -/
def symbolLabel (symbol : String) : String :=
  match Operator.ofSymbol? symbol with
  | some o => o.label
  | none => symbol

/-! ## Input fields -/

/-- The kinds of input field, each with the operators it offers. -/
inductive InputKind where
  | text
  | numeric
  | date
  | select
  | boolean
  | multiselect
  | grid
  deriving DecidableEq, Repr

namespace InputKind

def all : List InputKind := [.text, .numeric, .date, .select, .boolean, .multiselect, .grid]

def operators : InputKind → List Operator
  | .text => [.is, .isNot, .contains, .notContains, .oneOf, .notOneOf]
  | .numeric => [.is, .isNot, .atLeast, .greaterThan, .atMost, .lessThan]
  | .date => [.is, .atLeast, .greaterThan, .atMost, .lessThan]
  | .select | .boolean => [.is, .isNot]
  | .multiselect | .grid => [.oneOf, .notOneOf]

end InputKind

end RulePlan
