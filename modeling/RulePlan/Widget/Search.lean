/-
  RulePlan.Widget.Search — the search behind a widget.

  A search has a plan, a sort order and a page. Its plan starts with the attribute set
  and the active flag, and the conditions of the widget can only add groups to it. A
  widget without an attribute set has no search.
-/

import RulePlan.Compile
import RulePlan.Sql.Statement
import RulePlan.Widget.Parameters

namespace RulePlan

structure Search where
  plan : Plan
  sort : SortOrder
  page : Page
  deriving DecidableEq, Repr

namespace Search

def attributeSetField : String := "attribute_set_id"

def activeField : String := "is_active"

/-- The plan of every widget of an attribute set. -/
def basePlan (attributeSet : Int64) : Plan :=
  ⟨[.single (.single attributeSetField .eq (.int attributeSet)), .single (.single activeField .eq (.bool true))]⟩

/-- Without a pager there is one page, which has all items. -/
def pageOf (p : Parameters) (requested : UInt64) : Page :=
  if p.hasPager then ⟨p.perPage, max requested 1, some p.count⟩ else ⟨p.count, 1, none⟩

/-- The search of a widget, for the page that is asked for. -/
def ofParameters (lookup : Lookup) (limit : Nat) (defaultSet : Option Int64) (p : Parameters) (requested : UInt64) :
    Noted (Option Search) :=
  match p.attributeSet?.or defaultSet with
  | none => Noted.note .noAttributeSet none
  | some attributeSet => do
    let tree ← p.tree
    let (plan, s) := compileIn lookup limit tree {}
    let dropped := s.dropped.map fun d => Event.widgetConditionDropped d.field d.reason.text
    ⟨some ⟨(basePlan attributeSet).extend plan, p.sortOrder, pageOf p requested⟩, s.events ++ dropped⟩

def window (s : Search) : Window := s.page.window

/-- The statement of a search: its plan, its order and its window. -/
def sql (s : Search) (d : Dialect) (table : String) : String :=
  let w := s.window
  Sql.write d (Sql.selection d table s.plan
    ++ [.code " ORDER BY ", .name s.sort.field.column, .code (" " ++ s.sort.direction.name),
      .code (" LIMIT " ++ toString w.limit.toNat)]
    ++ (if w.offset = 0 then [] else [.code (" OFFSET " ++ toString w.offset.toNat)]))

end Search

end RulePlan
