/-
  RulePlan.Sql.Test — the tests that predicates become.

  A test compares terms: columns, values and columns with their delimiters replaced.
  Membership in a stored set has a test of its own in each dialect. MySQL looks in a
  list with commas, so other delimiters are replaced first; PostgreSQL cuts the stored
  text at the delimiter and compares texts.
-/

import RulePlan.Plan.Basic
import RulePlan.Sql.Quoted

namespace RulePlan.Sql

inductive Term where
  | null
  | column (name : String)
  | value (s : Scalar)
  | replaced (t : Term) (target replacement : String)
  deriving DecidableEq, Repr

inductive Sign where
  | equal
  | notEqual
  | greater
  | greaterOrEqual
  | less
  | lessOrEqual
  deriving DecidableEq, Repr

inductive Test where
  | compare (sign : Sign) (left right : Term)
  | like (negated : Bool) (t : Term) (pattern : String)
  | oneOf (negated : Bool) (t : Term) (items : List Term)
  | isNull (negated : Bool) (t : Term)
  /-- The place of a value in a list with commas; a place is positive. -/
  | inCommaList (negated : Bool) (wanted stored : Term)
  /-- A value, as a text, among the parts of a stored text. -/
  | amongParts (negated : Bool) (wanted stored : Term) (delimiter : String)
  deriving DecidableEq, Repr

/-! ## From predicates -/

/-- The first scalar of an operand; NULL stands for a missing one. -/
def Term.first (o : Operand) : Term :=
  match o.first? with
  | some s => .value s
  | none => .null

/-- The pattern of an operand; a missing one is the empty text. -/
def patternText (o : Operand) : String :=
  match o.first? with
  | some s => s.asText
  | none => ""

def membership (d : Dialect) (negated : Bool) (p : Predicate) : Test :=
  let column := Term.column p.field
  let wanted := Term.first p.operand
  match d with
  | .mysql =>
    if p.delimiter = defaultDelimiter then .inCommaList negated wanted column
    else .inCommaList negated wanted (.replaced column p.delimiter defaultDelimiter)
  | .postgres => .amongParts negated wanted column p.delimiter

def Test.ofPredicate (d : Dialect) (p : Predicate) : Test :=
  let column := Term.column p.field
  let compared (sign : Sign) : Test := .compare sign column (Term.first p.operand)
  match p.comparison with
  | .eq => compared .equal
  | .neq => compared .notEqual
  | .gt => compared .greater
  | .gte => compared .greaterOrEqual
  | .lt => compared .less
  | .lte => compared .lessOrEqual
  | .like => .like false column (patternText p.operand)
  | .nlike => .like true column (patternText p.operand)
  | .oneOf => .oneOf false column (p.operand.toList.map .value)
  | .noneOf => .oneOf true column (p.operand.toList.map .value)
  | .isNull => .isNull false column
  | .notNull => .isNull true column
  | .memberOf => membership d false p
  | .notMemberOf => membership d true p

/-! ## As pieces -/

def valuePiece : Scalar → Piece
  | .bool b => .code (if b then "TRUE" else "FALSE")
  | .int n => .code (Scalar.int n).asText
  | .float x => .code (Scalar.float x).asText
  | .text s => .text s

def Term.pieces : Term → List Piece
  | .null => [.code "NULL"]
  | .column name => [.name name]
  | .value s => [valuePiece s]
  | .replaced t target replacement =>
    .code "REPLACE(" :: t.pieces ++ [.code ", ", .text target, .code ", ", .text replacement, .code ")"]

def Sign.text : Sign → String
  | .equal => " = "
  | .notEqual => " <> "
  | .greater => " > "
  | .greaterOrEqual => " >= "
  | .less => " < "
  | .lessOrEqual => " <= "

/-- The character that makes wildcards stand for themselves. -/
def likeEscape : String := "\\"

/-- A test for the empty list is replaced by one that has its result. -/
def Test.pieces : Test → List Piece
  | .compare sign left right => left.pieces ++ .code sign.text :: right.pieces
  | .like negated t pattern =>
    t.pieces ++ [.code (if negated then " NOT LIKE " else " LIKE "), .text pattern, .code " ESCAPE ", .text likeEscape]
  | .oneOf negated _ [] => [.code (if negated then "1 = 1" else "1 = 2")]
  | .oneOf negated t items =>
    t.pieces ++ .code (if negated then " NOT IN (" else " IN (") :: joined ", " (items.map Term.pieces) ++ [.code ")"]
  | .isNull negated t => t.pieces ++ [.code (if negated then " IS NOT NULL" else " IS NULL")]
  | .inCommaList negated wanted stored =>
    .code "FIND_IN_SET(" :: wanted.pieces ++ .code ", " :: stored.pieces
      ++ [.code (if negated then ") = 0" else ") > 0")]
  | .amongParts negated wanted stored delimiter =>
    let test := .code "CAST(" :: wanted.pieces ++ .code " AS TEXT) = ANY(string_to_array(" :: stored.pieces
      ++ [.code ", ", .text delimiter, .code "))"]
    if negated then .code "NOT (" :: test ++ [.code ")"] else test

/-- Membership tests are parenthesised where they stand beside another test. -/
def Test.piecesBeside (t : Test) : List Piece :=
  match t with
  | .inCommaList .. | .amongParts .. => parenthesised t.pieces
  | _ => t.pieces

end RulePlan.Sql
