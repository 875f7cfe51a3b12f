/-
  RulePlan.Sql.Quoted — names and text literals in SQL.

  The two dialects quote names by different characters, and a quote inside a name is
  doubled. In a text literal quotes, backslashes and some control characters are
  written as a backslash and a letter. A statement is a list of pieces, and names and
  texts are quoted when the pieces are written, so nothing that comes from a plan
  stands outside its quotes.
-/

import RulePlan.Json.Field

namespace RulePlan

inductive Dialect where
  | mysql
  | postgres
  deriving DecidableEq, Repr

namespace Dialect

def all : List Dialect := [.mysql, .postgres]

def name : Dialect → String
  | .mysql => "mysql"
  | .postgres => "postgres"

/-- The name shown to people. -/
def title : Dialect → String
  | .mysql => "Mysql"
  | .postgres => "Postgres"

def ofName? (name : String) : Option Dialect := all.find? (·.name = name)

theorem ofName?_name (d : Dialect) : ofName? d.name = some d := by
  cases d <;> decide

def ofJson? (v : Json) : Option Dialect := (Json.name? v).bind ofName?

end Dialect

namespace Sql

def nameQuote : Dialect → Char
  | .mysql => '\x60'
  | .postgres => '"'

def quoteName (d : Dialect) (s : String) : String :=
  let q := nameQuote d
  String.ofList (q :: s.toList.flatMap (fun c => if c = q then [q, q] else [c]) ++ [q])

def escapeChar : Char → List Char
  | '\\' => ['\\', '\\']
  | '"' => ['\\', '"']
  | '\'' => ['\\', '\'']
  | '\x00' => ['\\', '0']
  | '\x08' => ['\\', 'b']
  | '\t' => ['\\', 't']
  | '\x1A' => ['\\', 'z']
  | '\n' => ['\\', 'n']
  | '\r' => ['\\', 'r']
  | c => [c]

/-- PostgreSQL wants a mark in front of a literal with backslashes. -/
def quoteText (d : Dialect) (s : String) : String :=
  let body := s.toList.flatMap escapeChar
  let mark := if d = .postgres && body.contains '\\' then ['E'] else []
  String.ofList (mark ++ '\'' :: body ++ ['\''])

/-! ## Pieces -/

inductive Piece where
  | code (s : String)
  | name (s : String)
  | text (s : String)
  deriving DecidableEq, Repr

def Piece.write (d : Dialect) : Piece → String
  | .code s => s
  | .name s => quoteName d s
  | .text s => quoteText d s

def write (d : Dialect) (pieces : List Piece) : String := String.join (pieces.map (·.write d))

/-- Lists of pieces with code between them. -/
def joined (separator : String) (parts : List (List Piece)) : List Piece := [Piece.code separator].intercalate parts

def parenthesised (pieces : List Piece) : List Piece := .code "(" :: pieces ++ [.code ")"]

end Sql

end RulePlan
