/-
  RulePlan.Json.Printer — JSON text of documents.

  `compact` writes a document on one line without blanks, `pretty` with one member or
  item a line, indented by two spaces; an empty array or object is written without a
  line break. Members are written in their order. A double has the fewest digits that
  read back, a tie going to the even digit, and always a point or an exponent.
-/

import RulePlan.Json.Basic
import RulePlan.Number.Numeral

namespace RulePlan.Json

/-! ## Strings and numbers -/

def hexDigit (n : Nat) : Char := if n < 10 then Char.ofNat ('0'.toNat + n) else Char.ofNat ('a'.toNat + (n - 10))

def escapeChar (c : Char) : List Char :=
  match c with
  | '"' => ['\\', '"']
  | '\\' => ['\\', '\\']
  | '\n' => ['\\', 'n']
  | '\r' => ['\\', 'r']
  | '\t' => ['\\', 't']
  | '\x08' => ['\\', 'b']
  | '\x0C' => ['\\', 'f']
  | _ => if c.toNat < 0x20 then ['\\', 'u', '0', '0', hexDigit (c.toNat / 16), hexDigit (c.toNat % 16)] else [c]

def quoted (s : String) : String := String.ofList ('"' :: s.toList.flatMap escapeChar ++ ['"'])

/-- The spelling of doubles: positional while the point stands at most `digitsBefore` digits from
    the left or `zerosAfter` zeros to the right, and with an exponent beyond that. -/
structure DoubleForm where
  digitsBefore : Int
  zerosAfter : Int
  plus : Bool
  tie : Tie
  deriving DecidableEq, Repr

def doubleForm : DoubleForm := ⟨16, 4, true, .even⟩

/-- The exponent form `d.ddde±x` of a decimal whose first digit stands for 10 ^ exponent. -/
def scientific (plus : Bool) (digits : List Char) (exponent : Int) : List Char :=
  let mantissa := match digits with
    | d :: e :: r => d :: '.' :: e :: r
    | s => s
  let sign := if exponent < 0 then ['-'] else if plus then ['+'] else []
  mantissa ++ 'e' :: sign ++ Nat.toDigits 10 exponent.natAbs

def DoubleForm.write (form : DoubleForm) (d : Decimal) : List Char :=
  let digits := Nat.toDigits 10 d.digits
  let point : Int := digits.length + d.exponent
  if d.digits = 0 then ['0', '.', '0']
  else if -form.zerosAfter ≤ point ∧ point ≤ form.digitsBefore then
    if 0 ≤ d.exponent then Numeral.positional d ++ ['.', '0'] else Numeral.positional d
  else scientific form.plus digits (point - 1)

/-- Numbers that are not finite have no JSON form and are written as null. -/
def writeReal (x : Binary64) : String :=
  if x.isFinite then
    let body := doubleForm.write (Decimal.shortest doubleForm.tie x.magnitude)
    String.ofList (if x.negative then '-' :: body else body)
  else "null"

/-- The text of what is neither array nor object. -/
def writeLeaf : Json → String
  | .null => "null"
  | .bool b => if b then "true" else "false"
  | .int n => toString n
  | .real x => writeReal x
  | .str s => quoted s
  | .arr _ => "[]"
  | .obj _ => "\x7b\x7d"

/-! ## Documents -/

mutual

def compact : Json → String
  | .arr items => "[" ++ compactItems items ++ "]"
  | .obj members => "\x7b" ++ compactMembers members ++ "\x7d"
  | v => writeLeaf v

def compactItems : List Json → String
  | [] => ""
  | [v] => compact v
  | v :: rest => compact v ++ "," ++ compactItems rest

def compactMembers : List (String × Json) → String
  | [] => ""
  | [(key, v)] => quoted key ++ ":" ++ compact v
  | (key, v) :: rest => quoted key ++ ":" ++ compact v ++ "," ++ compactMembers rest

end

/-- A line break and the indentation of a level. -/
def newLine (level : Nat) : String := String.ofList ('\n' :: List.replicate (2 * level) ' ')

mutual

def prettyAt (level : Nat) : Json → String
  | .arr [] => "[]"
  | .obj [] => "\x7b\x7d"
  | .arr items => "[" ++ prettyItems (level + 1) items ++ newLine level ++ "]"
  | .obj members => "\x7b" ++ prettyMembers (level + 1) members ++ newLine level ++ "\x7d"
  | v => writeLeaf v

def prettyItems (level : Nat) : List Json → String
  | [] => ""
  | [v] => newLine level ++ prettyAt level v
  | v :: rest => newLine level ++ prettyAt level v ++ "," ++ prettyItems level rest

def prettyMembers (level : Nat) : List (String × Json) → String
  | [] => ""
  | [(key, v)] => newLine level ++ quoted key ++ ": " ++ prettyAt level v
  | (key, v) :: rest => newLine level ++ quoted key ++ ": " ++ prettyAt level v ++ "," ++ prettyMembers level rest

end

def pretty (v : Json) : String := prettyAt 0 v

end RulePlan.Json
