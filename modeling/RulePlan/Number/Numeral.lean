/-
  RulePlan.Number.Numeral — numbers read from texts and written as texts.

  Whole numbers are an optional sign and one digit or more. Decimals may also have a
  point, with digits on at least one side of it, and an exponent; `inf`, `infinity`
  and `nan` are read in any letter case. A double is written with the fewest digits
  that read back (`Number.Shortest`), positionally and without an exponent.
-/

import RulePlan.Number.Shortest

namespace RulePlan.Numeral

/-! ## Reading -/

def isDigit (c : Char) : Bool := '0' ≤ c && c ≤ '9'

def digitValue (c : Char) : Nat := c.toNat - '0'.toNat

/-- The number that a list of digits stands for; 0 for the empty list. -/
def ofDigits (digits : List Char) : Nat := digits.foldl (fun n c => 10 * n + digitValue c) 0

def natural? (s : List Char) : Option Nat :=
  if !s.isEmpty && s.all isDigit then some (ofDigits s) else none

/-- An optional sign, true for a minus, and what follows it. -/
def splitSign : List Char → Bool × List Char
  | '-' :: r => (true, r)
  | '+' :: r => (false, r)
  | s => (false, s)

def integer? (s : List Char) : Option Int :=
  let (negative, body) := splitSign s
  (natural? body).map fun n => if negative then -(n : Int) else n

def int64? (s : List Char) : Option Int64 :=
  (integer? s).bind fun n =>
    if Binary64.minInt64 ≤ n ∧ n ≤ Binary64.maxInt64 then some (Int64.ofInt n) else none

/-- A natural number below 2³², which may have a plus sign. -/
def uint32? (s : List Char) : Option Nat :=
  let body := match s with
    | '+' :: r => r
    | s => s
  (natural? body).filter (· < UInt32.size)

/-- An exponent mark and a whole number; 0 for the empty text. -/
def exponent? : List Char → Option Int
  | [] => some 0
  | c :: r => if c = 'e' || c = 'E' then integer? r else none

/-- The fraction digits after a point, and what follows them. -/
def splitFraction : List Char → List Char × List Char
  | '.' :: r => (r.takeWhile isDigit, r.dropWhile isDigit)
  | s => ([], s)

/-- The decimal with the given digits before and after its point. -/
def ofParts (negative : Bool) (whole fraction : List Char) (exponent : Int) : Binary64 :=
  Binary64.ofDecimal negative (ofDigits (whole ++ fraction)) (exponent - fraction.length)

def decimal? (s : List Char) : Option Binary64 :=
  let (negative, body) := splitSign s
  let name := String.ofList (body.map Char.toLower)
  if name = "inf" || name = "infinity" then some (.infinite negative)
  else if name = "nan" then some .nan
  else
    let whole := body.takeWhile isDigit
    let (fraction, rest) := splitFraction (body.dropWhile isDigit)
    if whole.isEmpty && fraction.isEmpty then none
    else (exponent? rest).map (ofParts negative whole fraction)

/-! ## Writing -/

/-- Digits with the point moved `places` to the left. -/
def withPoint (digits : List Char) (places : Nat) : List Char :=
  let padded := List.replicate (places + 1 - digits.length) '0' ++ digits
  padded.take (padded.length - places) ++ '.' :: padded.drop (padded.length - places)

/-- A decimal in positional form, without a point when it is whole. -/
def positional (d : Decimal) : List Char :=
  let digits := Nat.toDigits 10 d.digits
  if 0 ≤ d.exponent then digits ++ (if d.digits = 0 then [] else List.replicate d.exponent.toNat '0')
  else withPoint digits (-d.exponent).toNat

def ofBinary64 (x : Binary64) : String :=
  if x.isNaN then "NaN"
  else
    let body := if x.isFinite then positional (Decimal.shortest .up x.magnitude) else "inf".toList
    String.ofList (if x.negative then '-' :: body else body)

end RulePlan.Numeral
