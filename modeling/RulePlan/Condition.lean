/-
  RulePlan.Condition — what a single condition asks for.

  `Condition.predicates` gives the predicates that put a condition into effect, for the
  attribute that its field names, or the reason why there are none. Two fields name no
  attribute: `has_image` asks whether the record has an image, and `entity_id` lists
  identifiers. On an attribute that stores sets, `one of` gives one membership test for
  each value and `not one of` one exclusion for each.
-/

import RulePlan.Plan.Basic
import RulePlan.Session
import RulePlan.Tree.Basic

namespace RulePlan

def hasImageField : String := "has_image"

def entityIdField : String := "entity_id"

/-- The stored field behind `has_image`. -/
def imageField : String := "image"

namespace Condition

/-- The attribute code that a condition names, if it names one. -/
def code? (c : Condition) : Option String :=
  let field := Text.trim c.field
  if field = "" ∨ field = hasImageField ∨ field = entityIdField then none else some field

/-- Chosen and not negated, or negated and not chosen: the image is there. -/
def imagePredicate (c : Condition) : Except DropReason Predicate :=
  if c.value.isAbsent then .error .emptyValue
  else
    let selected := match c.value.first? with
      | some s => s.isTruthy
      | none => false
    let negated := decide (Text.trim c.operator = Operator.isNot.symbol)
    .ok (.single imageField (if selected ^^ negated then .notNull else .isNull) (.bool true))

/-- The identifiers of a value: every text is cut into tokens. -/
def identifiers (v : FormValue) : List Scalar :=
  (v.toList.flatMap fun s => match s with
    | .text t => (tokens t).map Scalar.text
    | s => [s]).map Scalar.asCode

/-- Identifiers are listed, so `is` means `one of` here. -/
def listComparison : Comparison → Comparison
  | .eq => .oneOf
  | .neq => .noneOf
  | k => k

def identifierPredicate (c : Condition) : Except DropReason Predicate :=
  match identifiers c.value with
  | [] => .error .emptyValue
  | id :: ids =>
    let comparison := listComparison (comparisonOf c.operator)
    let operand : Operand := match comparison with
      | .oneOf | .noneOf => .list (id :: ids)
      | .like | .nlike => .single (containsPattern id)
      | _ => .single id
    .ok { field := entityIdField, comparison, operand }

/-- The predicates of a comparison on an attribute that stores sets. -/
def setPredicates (code delimiter : String) (comparison : Comparison) (operand : Operand) : List Predicate :=
  let test (k : Comparison) (s : Scalar) : Predicate := (Predicate.single code k s).withDelimiter delimiter
  match comparison, operand with
  | .oneOf, .list items => items.map (test .memberOf)
  | .noneOf, .list items => items.map (test .notMemberOf)
  | .eq, .single s => [test .memberOf s]
  | .neq, .single s => [test .notMemberOf s]
  | comparison, operand => [{ field := code, comparison, operand }]

def attributePredicates (c : Condition) (code : String) (a : Attribute) : Except DropReason (List Predicate) :=
  let comparison := comparisonOf c.operator
  match normalize c.value comparison a.storage with
  | none => .error .emptyValue
  | some operand =>
    if a.storage = .codeSet then .ok (setPredicates code a.delimiter comparison operand)
    else .ok [{ field := code, comparison, operand }]

/-- The predicates of a condition, given the usable attribute of its code. -/
def predicates (c : Condition) (known : Option Attribute) : Except DropReason (List Predicate) :=
  let field := Text.trim c.field
  if field = "" then .error .missingField
  else if field = hasImageField then c.imagePredicate.map ([·])
  else if field = entityIdField then c.identifierPredicate.map ([·])
  else match known with
    | none => .error .unknownAttribute
    | some a => c.attributePredicates field a

/-- The predicates of a condition within a session, which may have to ask for the attribute. -/
def expand (lookup : Lookup) (c : Condition) (s : Session) : Except DropReason (List Predicate) × Session :=
  match c.code? with
  | none => (c.predicates none, s)
  | some code =>
    let (known, asked) := s.ask lookup code
    (c.predicates known, asked)

/-! ## Description -/

/-- The label of an option, or the value itself. -/
def valueLabel (known : Option Attribute) (s : Scalar) : String :=
  (known.bind (·.choiceLabel? s)).getD s.asText

/-- The values as they are listed; a text with commas is cut at them. -/
def listedValues : FormValue → List Scalar
  | .absent => []
  | .single (.text s) =>
    if s.toList.contains ',' then
      (Text.splitWhere (· = ',') s.toList).map fun piece => .text (String.ofList (Text.strip piece))
    else [.text s]
  | .single s => [s]
  | .list items => items

def valueText (c : Condition) (known : Option Attribute) : String :=
  if c.value.isAbsent then "..." else ", ".intercalate ((listedValues c.value).map (valueLabel known))

/-- The condition in words, such as `Color is one of Red, Blue`. -/
def describe (c : Condition) (known : Option Attribute) : String :=
  (known.bind (·.label)).getD c.field ++ " " ++ symbolLabel c.operator ++ " " ++ c.valueText known

end Condition

end RulePlan
