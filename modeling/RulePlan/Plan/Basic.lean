/-
  RulePlan.Plan.Basic — filter plans.

  A predicate compares one field with an operand; a group holds alternatives, and a
  plan is the conjunction of its groups. The plan without groups lets every record
  through. Plans are written for people (`Plan.text`) and in a wire form of JSON
  (`Plan.toJson`, `Plan.ofJson?`).
-/

import RulePlan.Operand

namespace RulePlan

structure Predicate where
  field : String
  comparison : Comparison
  operand : Operand
  /-- What separates the members of a stored set, where it is not the default. -/
  delimiter? : Option String := none
  deriving DecidableEq, Repr

structure Group where
  predicates : List Predicate
  deriving DecidableEq, Repr

structure Plan where
  groups : List Group := []
  deriving DecidableEq, Repr

/-! ## Predicates -/

namespace Predicate

def single (field : String) (comparison : Comparison) (s : Scalar) : Predicate :=
  { field, comparison, operand := .single s }

/-- The empty delimiter and the default one are not recorded. -/
def withDelimiter (p : Predicate) (delimiter : String) : Predicate :=
  { p with delimiter? := if delimiter = "" ∨ delimiter = defaultDelimiter then none else some delimiter }

def delimiter (p : Predicate) : String := p.delimiter?.getD defaultDelimiter

def text (p : Predicate) : String :=
  let operand := match p.operand with
    | .single s => s.asText
    | .list items => "[" ++ ", ".intercalate (items.map Scalar.asText) ++ "]"
  p.comparison.name ++ "(" ++ p.field ++ ", " ++ operand ++ ")"

end Predicate

/-! ## Groups -/

namespace Group

def single (p : Predicate) : Group := ⟨[p]⟩

/-- No group is made of nothing: it would let no record through. -/
def ofPredicates? (ps : List Predicate) : Option Group := if ps.isEmpty then none else some ⟨ps⟩

def text (g : Group) : String := "[" ++ " OR ".intercalate (g.predicates.map Predicate.text) ++ "]"

end Group

/-! ## Plans -/

namespace Plan

def push (p : Plan) (g : Group) : Plan := ⟨p.groups ++ [g]⟩

/-- The conjunction of two plans. -/
def extend (p q : Plan) : Plan := ⟨p.groups ++ q.groups⟩

def predicates (p : Plan) : List Predicate := p.groups.flatMap (·.predicates)

def predicateCount (p : Plan) : Nat := p.groups.foldr (fun g n => g.predicates.length + n) 0

def matchesEverything (p : Plan) : Bool := p.groups.isEmpty

def text (p : Plan) : String :=
  if p.groups.isEmpty then "<match all>" else " AND ".intercalate (p.groups.map Group.text)

end Plan

/-! ## Wire form -/

/-- The members in key order; a delimiter only where one is recorded. -/
def Predicate.toJson (p : Predicate) : Json :=
  .obj ([("conditionType", .str p.comparison.name)]
    ++ (match p.delimiter? with
      | some d => [("delimiter", .str d)]
      | none => [])
    ++ [("field", .str p.field), ("value", p.operand.toJson)])

def Predicate.fieldNames : List String := ["field", "conditionType", "value", "delimiter"]

def Predicate.ofJson? (v : Json) : Option Predicate := do
  let members ← Json.record? fieldNames v
  let field ← Json.required "field" Json.str? members
  let comparison ← Json.required "conditionType" (fun v => (Json.name? v).bind Comparison.ofName?) members
  let operand ← Json.required "value" Operand.ofJson? members
  let delimiter? ← Json.optional "delimiter" Json.str? members
  some { field, comparison, operand, delimiter? }

def Group.toJson (g : Group) : Json := .arr (g.predicates.map Predicate.toJson)

def Group.ofJson? (v : Json) : Option Group := (Json.list? Predicate.ofJson? v).map (⟨·⟩)

def Plan.toJson (p : Plan) : Json := .arr (p.groups.map Group.toJson)

def Plan.ofJson? (v : Json) : Option Plan := (Json.list? Group.ofJson? v).map (⟨·⟩)

end RulePlan
