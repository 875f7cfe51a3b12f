/-
  RulePlan.Sql.Statement — the statement of a plan.

  A plan becomes a clause, the tests of its predicates in the same groups. Groups are
  joined by AND and the alternatives of a group by OR; a group of alternatives is
  parenthesised where it stands beside another group. A group without alternatives is
  constantly false, and a plan without groups has no clause at all.
-/

import RulePlan.Sql.Test

namespace RulePlan.Sql

/-- A conjunction of alternatives. -/
abbrev Clause := List (List Test)

def Clause.ofPlan (d : Dialect) (p : Plan) : Clause := p.groups.map fun g => g.predicates.map (Test.ofPredicate d)

/-- The alternatives of a group; `alone` when the clause has no other group. -/
def alternativesPieces (alone : Bool) : List Test → List Piece
  | [] => [.code "FALSE"]
  | [t] => if alone then t.pieces else t.piecesBeside
  | ts =>
    let pieces := joined " OR " (ts.map Test.piecesBeside)
    if alone then pieces else parenthesised pieces

def Clause.pieces (c : Clause) : List Piece := joined " AND " (c.map (alternativesPieces (decide (c.length = 1))))

/-- The selection of the rows that a plan lets through. -/
def selection (d : Dialect) (table : String) (p : Plan) : List Piece :=
  [.code "SELECT * FROM ", .name table]
    ++ (if p.matchesEverything then [] else .code " WHERE " :: (Clause.ofPlan d p).pieces)

end RulePlan.Sql

namespace RulePlan

/-- The plan as a statement on a table, without order and bounds. -/
def Plan.sql (p : Plan) (d : Dialect) (table : String) : String := Sql.write d (Sql.selection d table p)

end RulePlan
