/-
  RulePlan.FormValue — values as the rule form submits them.

  A condition's value is absent, a single scalar or a list of scalars. `tokens` cuts a
  text at commas and semicolons into trimmed pieces that are not empty; `toList` is the
  list reading of a value, in which a single text is cut into its tokens and the blank
  items of a list are left out.
-/

import RulePlan.Scalar
import RulePlan.Text.Split

namespace RulePlan

def isTokenSeparator (c : Char) : Bool := c = ',' || c = ';'

def tokens (s : String) : List String :=
  (((Text.splitWhere isTokenSeparator s.toList).map Text.strip).filter (!·.isEmpty)).map String.ofList

inductive FormValue where
  | absent
  | single (s : Scalar)
  | list (items : List Scalar)
  deriving DecidableEq, Repr

namespace FormValue

def first? : FormValue → Option Scalar
  | .absent => none
  | .single s => some s
  | .list items => items.head?

/-- Nothing but blanks was submitted. -/
def isAbsent : FormValue → Bool
  | .absent => true
  | .single s => s.isBlank
  | .list items => items.all Scalar.isBlank

def toList : FormValue → List Scalar
  | .absent => []
  | .single (.text s) => (tokens s).map .text
  | .single s => [s]
  | .list items => items.filter (!·.isBlank)

/-- The JSON values null and false and all objects stand for no value; a list keeps the items that
    are scalars. -/
def ofJson : Json → FormValue
  | .null => .absent
  | .bool false => .absent
  | .obj _ => .absent
  | .arr items => .list (items.filterMap Scalar.ofJson?)
  | v => match Scalar.ofJson? v with
    | some s => .single s
    | none => .absent

end FormValue

end RulePlan
