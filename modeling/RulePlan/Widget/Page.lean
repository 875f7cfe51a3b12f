/-
  RulePlan.Widget.Page — sort orders and pages.

  Counts are 64-bit numbers, and sums and products stop at the largest of them. A page
  is a window of rows: how many to pass over and how many to show. The last page of a
  bounded listing shows what is left, the pages after it show nothing.
-/

import RulePlan.Plan.Basic

namespace RulePlan

/-! ## Sort orders -/

inductive SortField where
  | entityId
  | createdAt
  | updatedAt
  | name
  deriving DecidableEq, Repr

namespace SortField

def all : List SortField := [.entityId, .createdAt, .updatedAt, .name]

def column : SortField → String
  | .entityId => "entity_id"
  | .createdAt => "created_at"
  | .updatedAt => "updated_at"
  | .name => "name"

def label : SortField → String
  | .entityId => "ID"
  | .createdAt => "Created At"
  | .updatedAt => "Updated At"
  | .name => "Name"

/-- Whatever names no column sorts by name. -/
def ofText (s : String) : SortField := (all.find? (·.column = Text.trim s)).getD .name

end SortField

inductive SortDirection where
  | ascending
  | descending
  deriving DecidableEq, Repr

namespace SortDirection

def name : SortDirection → String
  | .ascending => "ASC"
  | .descending => "DESC"

/-- Whatever is not `ASC`, in any letter case, is descending. -/
def ofText (s : String) : SortDirection :=
  if (Text.strip s.toList).map Char.toUpper = "ASC".toList then .ascending else .descending

end SortDirection

structure SortOrder where
  field : SortField := .name
  direction : SortDirection := .descending
  deriving DecidableEq, Repr

/-! ## Counts -/

namespace Count

/-- The number itself, or the largest count. -/
def clamp (n : Nat) : UInt64 := if n < UInt64.size then UInt64.ofNat n else UInt64.ofNat (UInt64.size - 1)

def times (a b : UInt64) : UInt64 := clamp (a.toNat * b.toNat)

/-- The difference, or zero. -/
def minus (a b : UInt64) : UInt64 := clamp (a.toNat - b.toNat)

end Count

/-! ## Pages -/

structure Page where
  size : UInt64
  /-- Counted from 1. -/
  number : UInt64
  /-- The most rows that all pages show together. -/
  total? : Option UInt64
  deriving DecidableEq, Repr

structure Window where
  offset : UInt64
  limit : UInt64
  deriving DecidableEq, Repr

def Page.window (p : Page) : Window :=
  let offset := Count.times (Count.minus p.number 1) p.size
  match p.total? with
  | some total => ⟨offset, min p.size (Count.minus total offset)⟩
  | none => ⟨offset, p.size⟩

end RulePlan
