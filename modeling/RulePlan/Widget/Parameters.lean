/-
  RulePlan.Widget.Parameters — the parameters of a listing widget.

  Parameters are loosely typed: numbers may be texts and flags may be "0" and "1", so
  each is kept as the document it is and read when it is used. Counts that are not
  positive fall back to a default. The conditions are a text in the encoding of
  widgets or a document; those given as `conditions_encoded` win.
-/

import RulePlan.Tree.Reader
import RulePlan.Widget.Page

namespace RulePlan

structure Parameters where
  attributeSetId : Json := .null
  conditionsEncoded : Json := .null
  conditions : Json := .null
  sortBy : Json := .null
  sortDirection : Json := .null
  itemsCount : Json := .null
  itemsPerPage : Json := .null
  showPager : Json := .null
  deriving Repr

namespace Parameters

def defaultItemsCount : UInt64 := 8

def defaultItemsPerPage : UInt64 := 4

def fieldNames : List String :=
  ["attribute_set_id", "conditions_encoded", "conditions", "sort_by", "sort_direction", "items_count",
    "items_per_page", "show_pager"]

def ofJson? (v : Json) : Option Parameters := do
  let members ← Json.record? fieldNames v
  let read (key : String) : Option Json := Json.withDefault key .null some members
  let attributeSetId ← read "attribute_set_id"
  let conditionsEncoded ← read "conditions_encoded"
  let conditions ← read "conditions"
  let sortBy ← read "sort_by"
  let sortDirection ← read "sort_direction"
  let itemsCount ← read "items_count"
  let itemsPerPage ← read "items_per_page"
  let showPager ← read "show_pager"
  some { attributeSetId, conditionsEncoded, conditions, sortBy, sortDirection, itemsCount, itemsPerPage, showPager }

/-! ## Loose readings -/

/-- A number, cut off towards zero, or a text that is a whole number between blanks. -/
def integer? : Json → Option Int64
  | .int n =>
    some (if Binary64.minInt64 ≤ n ∧ n ≤ Binary64.maxInt64 then Int64.ofInt n else (Binary64.ofInt n).toInt64)
  | .real x => some x.toInt64
  | .str s => Numeral.int64? (Text.strip s.toList)
  | _ => none

def positive? (v : Json) : Option UInt64 := (integer? v).bind fun n => if 0 < n then some n.toUInt64 else none

def isTruthy : Json → Bool
  | .null => false
  | .bool b => b
  | .int n => n ≠ 0
  | .real x => !x.isZero
  | .str s => s ≠ "" && s ≠ "0"
  | .arr items => !items.isEmpty
  | .obj members => !members.isEmpty

/-! ## Accessors -/

def attributeSet? (p : Parameters) : Option Int64 := integer? p.attributeSetId

def sortOrder (p : Parameters) : SortOrder where
  field := match p.sortBy.str? with
    | some s => SortField.ofText s
    | none => .name
  direction := match p.sortDirection.str? with
    | some s => SortDirection.ofText s
    | none => .descending

def count (p : Parameters) : UInt64 := (positive? p.itemsCount).getD defaultItemsCount

def perPage (p : Parameters) : UInt64 := (positive? p.itemsPerPage).getD defaultItemsPerPage

def hasPager (p : Parameters) : Bool := isTruthy p.showPager

/-- Conditions that cannot be decoded are noted and give the empty tree. -/
def tree (p : Parameters) : Noted Tree :=
  match if isTruthy p.conditionsEncoded then p.conditionsEncoded else p.conditions with
  | .str encoded => match Tree.ofEncoded? encoded with
    | .ok t => t
    | .error e => Noted.note (.conditionsUndecodable e.message encoded) {}
  | .null => pure {}
  | v => Tree.ofJson v

end Parameters

end RulePlan
