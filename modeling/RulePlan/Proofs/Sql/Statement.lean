/-
  RulePlan.Proofs.Sql.Statement — a statement says what its plan says.

  The statement of a plan is read by the quoting rules of its dialect and, from WHERE on,
  as a condition. Every group is an operand of the condition and every predicate one of
  its group, whatever parentheses they get where they stand.

  Proved: the pieces of a selection are read one by one, and as a statement they give the
  table and, if the plan has groups, a condition that says what these say
  (`lexes_selection`, `readSelection_selection`, `says_ofGroups`).
-/

import RulePlan.Proofs.Sql.Expression
import RulePlan.Sql.Statement

namespace RulePlan.Sql

variable {d : Dialect}

/-! ## Junctions of pieces -/

/-- What is done to the parts of an append is done to the parts of a junction. -/
theorem apply_intercalate {α β : Type} {φ : List α → List β} (hnil : φ [] = [])
    (happend : ∀ x y, φ (x ++ y) = φ x ++ φ y) (separator : List α) (parts : List (List α)) :
    φ (separator.intercalate parts) = (φ separator).intercalate (parts.map φ) := by
  induction parts with
  | nil => exact hnil
  | cons x rest ih =>
    cases rest with
    | nil => rw [List.intercalate_singleton, List.map_singleton, List.intercalate_singleton]
    | cons y rest =>
      rw [List.intercalate_cons_cons, happend, happend, ih]
      simp only [List.map_cons, List.intercalate_cons_cons]

theorem tokens_joined (d : Dialect) (s : String) (parts : List (List Piece)) :
    tokens d (joined s parts) = (tokens d [.code s]).intercalate (parts.map (tokens d)) :=
  apply_intercalate rfl (tokens_append d) _ _

theorem tokens_or (d : Dialect) : tokens d [.code " OR "] = [keyword "OR"] := by cases d <;> decide

theorem tokens_and (d : Dialect) : tokens d [.code " AND "] = [keyword "AND"] := by cases d <;> decide

theorem lexes_or {parts : List (List Piece)} (hne : parts ≠ []) (h : ∀ x ∈ parts, Lexes d x) :
    Lexes d (joined " OR " parts) :=
  lexes_joined (by decide) (by cases d <;> decide) hne h

/-! ## Groups and clauses -/

/-- The alternatives of a group, each taken as its tokens. -/
def alternatives (d : Dialect) (ts : List Test) : Formula (List Token) :=
  .any (ts.map fun t => .atom (tokens d t.pieces))

theorem read_or (d : Dialect) {ts : List Test} (hne : ts ≠ []) :
    read (tokens d (joined " OR " (ts.map Test.piecesBeside))) = alternatives d ts := by
  rw [tokens_joined, tokens_or, List.map_map]
  exact read_disjunction hne fun t _ => t.stands_beside

theorem lexes_false : Lexes d [.code "FALSE"] := .code (by cases d <;> decide)

theorem tokens_false (d : Dialect) : tokens d [.code "FALSE"] = [keyword "FALSE"] := by cases d <;> decide

theorem lexes_alternatives (alone : Bool) (ts : List Test) : Lexes d (alternativesPieces alone ts) := by
  match ts with
  | [] => exact lexes_false
  | [t] => cases alone <;> first | exact t.lexes_beside | exact t.isWhole.lexes
  | t :: u :: rest =>
    have hor : Lexes d (joined " OR " ((t :: u :: rest).map Test.piecesBeside)) :=
      lexes_or (by simp) (List.forall_mem_map.mpr fun t _ => t.lexes_beside)
    cases alone
    · exact lexes_parenthesised hor
    · exact hor

theorem read_alone (ts : List Test) : read (tokens d (alternativesPieces true ts)) = alternatives d ts := by
  match ts with
  | [] =>
    rw [alternativesPieces, tokens_false]
    exact stands_false.read
  | [t] => exact t.stands.read
  | t :: u :: rest => exact read_or d (List.cons_ne_nil _ _)

theorem balanced_or (d : Dialect) (ts : List Test) :
    Balanced (tokens d (joined " OR " (ts.map Test.piecesBeside))) := by
  rw [tokens_joined, tokens_or, List.map_map]
  exact forall_intercalate .nil .append (balanced_keyword _)
    (List.forall_mem_map.mpr fun t _ => t.stands_beside.balanced)

theorem stands_alternatives (ts : List Test) : Stands (tokens d (alternativesPieces false ts)) (alternatives d ts) := by
  match ts with
  | [] =>
    rw [alternativesPieces, tokens_false]
    exact stands_false
  | [t] => exact t.stands_beside
  | t :: u :: rest =>
    rw [← read_or d (List.cons_ne_nil t (u :: rest))]
    show Stands (tokens d (parenthesised _)) _
    rw [tokens_parenthesised]
    exact .parenthesised (balanced_or d _)

theorem Clause.lexes (c : Clause) (hne : c ≠ []) : Lexes d c.pieces :=
  lexes_joined (by decide) (by cases d <;> decide) (by simpa using hne)
    (List.forall_mem_map.mpr fun ts _ => lexes_alternatives _ ts)

theorem Clause.read_pieces (c : Clause) (hne : c ≠ []) :
    read (tokens d c.pieces) = .ofGroups (c.map (·.map fun t => tokens d t.pieces)) := by
  have hgroups : Formula.ofGroups (c.map (·.map fun t => tokens d t.pieces)) = .all (c.map (alternatives d)) := by
    rw [Formula.ofGroups, List.map_map]
    refine congrArg Formula.all (List.map_congr_left fun ts _ => ?_)
    rw [Function.comp_apply, List.map_map]
    rfl
  rw [hgroups]
  cases c with
  | nil => exact absurd rfl hne
  | cons ts rest =>
    cases rest with
    | nil =>
      -- A group by itself has no parentheses, so its OR is the topmost keyword.
      show read (tokens d (joined " AND " [alternativesPieces true ts])) = _
      rw [joined, List.intercalate_singleton]
      exact read_alone ts
    | cons us rest =>
      rw [Clause.pieces, tokens_joined, tokens_and, List.map_map]
      exact read_conjunction hne fun ts _ => stands_alternatives ts

/-! ## Statements -/

structure Selection where
  table : List Char
  condition : Option (Formula (List Token))
  deriving DecidableEq

/-- The condition behind the table: what comes after WHERE, if anything comes at all. -/
def readCondition : List Token → Option (Option (Formula (List Token)))
  | [] => some none
  | t :: ts => if t = keyword "WHERE" then some (some (read ts)) else none

def readSelection : List Token → Option Selection
  | select :: star :: source :: .name table :: rest =>
    if [select, star, source] = [keyword "SELECT", .sign ['*'], keyword "FROM"] then
      (readCondition rest).map fun condition => ⟨table, condition⟩
    else none
  | _ => none

theorem lexes_selection (d : Dialect) (table : String) (p : Plan) : Lexes d (selection d table p) := by
  have hopen : endsBetween d "SELECT * FROM " := by cases d <;> decide
  have hwhere : endsBetween d " WHERE " := by cases d <;> decide
  unfold selection
  split
  · exact (Lexes.name d table).opening hopen
  · next hall =>
    have hne : Clause.ofPlan d p ≠ [] := by simpa [Clause.ofPlan, Plan.matchesEverything] using hall
    exact ((Lexes.name d table).opening hopen).closing (by decide) (((Clause.ofPlan d p).lexes hne).opening hwhere)

theorem tokens_selection (d : Dialect) (table : String) (p : Plan) :
    tokens d (selection d table p) = keyword "SELECT" :: .sign ['*'] :: keyword "FROM" :: .name table.toList ::
      (if p.groups = [] then [] else keyword "WHERE" :: tokens d (Clause.ofPlan d p).pieces) := by
  have hopen : Piece.tokens d (.code "SELECT * FROM ") = [keyword "SELECT", .sign ['*'], keyword "FROM"] := by
    cases d <;> decide
  have hwhere : Piece.tokens d (.code " WHERE ") = [keyword "WHERE"] := by cases d <;> decide
  have hall : p.matchesEverything ↔ p.groups = [] := List.isEmpty_iff
  rw [selection, tokens_append]
  show Piece.tokens d (.code "SELECT * FROM ") ++ _ ++ _ = _
  rw [hopen]
  by_cases hgroups : p.groups = []
  · rw [if_pos hgroups, if_pos (hall.mpr hgroups)]
    rfl
  · rw [if_neg hgroups, if_neg (mt hall.mp hgroups)]
    show _ ++ (Piece.tokens d (.code " WHERE ") ++ _) = _
    rw [hwhere]
    rfl

theorem readSelection_selection (d : Dialect) (table : String) (p : Plan) :
    readSelection (tokens d (selection d table p)) = some ⟨table.toList, if p.groups = [] then none else
      some (.ofGroups (p.groups.map fun g => g.predicates.map fun q => tokens d (Test.ofPredicate d q).pieces))⟩ := by
  rw [tokens_selection]
  by_cases hgroups : p.groups = []
  · rw [if_pos hgroups, if_pos hgroups]
    rfl
  · have hne : Clause.ofPlan d p ≠ [] := by simpa [Clause.ofPlan] using hgroups
    have hread : read (tokens d (Clause.ofPlan d p).pieces) =
        .ofGroups (p.groups.map fun g => g.predicates.map fun q => tokens d (Test.ofPredicate d q).pieces) := by
      rw [(Clause.ofPlan d p).read_pieces hne]
      simp [Clause.ofPlan, Function.comp_def]
    rw [if_neg hgroups, if_neg hgroups, ← hread]
    rfl

/-! ## What a condition says -/

end RulePlan.Sql

namespace RulePlan

open Sql

/-- A predicate as an expression by itself. -/
def Predicate.sql (q : Predicate) (d : Dialect) : String := Sql.write d (Test.ofPredicate d q).pieces

end RulePlan

namespace RulePlan.Sql

/-- The condition is over the expressions of a plan, in order, and is true when each of its groups has a true one. -/
structure Says (d : Dialect) (condition : Formula (List Token)) (p : Plan) : Prop where
  expressions : condition.atoms.map some = p.predicates.map fun q => lex d (q.sql d).toList
  truth_iff : ∀ values : List (List Truth), values.map List.length = p.groups.map (·.predicates.length) →
    ((condition.assign values.flatten).truth = .yes ↔ ∀ group ∈ values, .yes ∈ group)

theorem says_ofGroups (d : Dialect) (p : Plan) :
    Says d (.ofGroups (p.groups.map fun g => g.predicates.map fun q => tokens d (Test.ofPredicate d q).pieces)) p where
  expressions := by
    have hlexes : ∀ q : Predicate, lex d (q.sql d).toList = some (tokens d (Test.ofPredicate d q).pieces) := fun q =>
      (Test.ofPredicate d q).isWhole.lexes
    rw [Formula.atoms_ofGroups, Plan.predicates, List.map_flatten, List.map_flatMap, List.map_map]
    simp [hlexes, List.flatMap_def, Function.comp_def]
  truth_iff values h := by
    rw [Formula.assign_ofGroups (by simpa [Function.comp_def] using h)]
    exact Formula.truth_ofGroups

end RulePlan.Sql
