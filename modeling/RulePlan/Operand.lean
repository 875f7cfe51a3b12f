/-
  RulePlan.Operand — the values that predicates compare with.

  `normalize` turns a submitted value into the operand of a comparison, or into nothing
  when there is nothing to compare with. Lists are read by `FormValue.toList`, other
  operands are the first scalar; coded attributes compare with option codes, pattern
  comparisons with a pattern that finds the value anywhere.
-/

import RulePlan.Attribute
import RulePlan.FormValue

namespace RulePlan

inductive Operand where
  | single (s : Scalar)
  | list (items : List Scalar)
  deriving DecidableEq, Repr

namespace Operand

def first? : Operand → Option Scalar
  | .single s => some s
  | .list items => items.head?

def toList : Operand → List Scalar
  | .single s => [s]
  | .list items => items

def ofJson? : Json → Option Operand
  | .arr items => (items.mapM Scalar.ofJson?).map .list
  | v => (Scalar.ofJson? v).map .single

def toJson : Operand → Json
  | .single s => s.toJson
  | .list items => .arr (items.map Scalar.toJson)

end Operand

/-- The wildcards of a text are preceded by a backslash. -/
def escapeWildcards (s : List Char) : List Char :=
  s.flatMap fun c => if c = '%' || c = '_' then ['\\', c] else [c]

/-- The pattern of the texts that contain a value. -/
def containsPattern (value : Scalar) : Scalar :=
  .text (String.ofList ('%' :: escapeWildcards value.asText.toList ++ ['%']))

/-- The value as an operand, before any reading of it as code or pattern. -/
def FormValue.operand? (v : FormValue) (takesList : Bool) : Option Operand :=
  if v.isAbsent then none
  else if takesList then if v.toList.isEmpty then none else some (.list v.toList)
  else (v.first?.filter (!·.isBlank)).map .single

def Operand.map (f : Scalar → Scalar) : Operand → Operand
  | .single s => .single (f s)
  | .list items => .list (items.map f)

def Operand.asCodes (storage : Storage) (o : Operand) : Operand := if storage.isCoded then o.map Scalar.asCode else o

def Operand.asPattern (c : Comparison) : Operand → Operand
  | .single s => .single (if c.takesPattern then containsPattern s else s)
  | .list items => .list items

/-- The operand that a comparison on an attribute gets from a submitted value. -/
def normalize (v : FormValue) (c : Comparison) (storage : Storage) : Option Operand :=
  (v.operand? c.takesList).map fun o => (o.asCodes storage).asPattern c

end RulePlan
