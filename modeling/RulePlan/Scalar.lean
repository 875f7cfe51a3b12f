/-
  RulePlan.Scalar — single values.

  A scalar is a flag, a 64-bit integer, a double or a text. It has a reading as a text
  (`asText`), as a number (`asNumber?`: texts count if they are finite decimals), as an
  option code (`asCode`: whole numbers, cut off towards zero and brought into 64 bits)
  and as a yes or no (`isTruthy`).
-/

import RulePlan.Json.Basic
import RulePlan.Number.Numeral
import RulePlan.Text.Blank

namespace RulePlan

inductive Scalar where
  | bool (b : Bool)
  | int (n : Int64)
  | float (x : Binary64)
  | text (s : String)
  deriving DecidableEq, Repr

namespace Scalar

/-! ## Readings -/

def asText : Scalar → String
  | .bool b => if b then "1" else "0"
  | .int n => toString n.toInt
  | .float x => Numeral.ofBinary64 x
  | .text s => s

def isBlank : Scalar → Bool
  | .text s => Text.allBlank s
  | _ => false

/-- The finite decimal that a text holds between blanks. -/
def textNumber? (s : String) : Option Binary64 :=
  (Numeral.decimal? (Text.strip s.toList)).filter Binary64.isFinite

def asNumber? : Scalar → Option Binary64
  | .bool _ => none
  | .int n => some (.ofInt n.toInt)
  | .float x => some x
  | .text s => textNumber? s

/-- The whole number that a text holds between blanks; any other decimal is cut off. -/
def textInteger? (s : String) : Option Int64 :=
  (Numeral.int64? (Text.strip s.toList)).or ((textNumber? s).map Binary64.toInt64)

/-- The option code that a value stands for; what is no number stays as it is. -/
def asCode : Scalar → Scalar
  | .float x => if x.isFinite then .int x.toInt64 else .float x
  | .text s => match textInteger? s with
    | some n => .int n
    | none => .text s
  | v => v

def isTruthy : Scalar → Bool
  | .bool b => b
  | .int n => n ≠ 0
  | .float x => !x.isZero
  | .text s => match textInteger? s with
    | some n => n ≠ 0
    | none => false

/-! ## JSON -/

/-- Integers beyond the range of a scalar become doubles. -/
def ofJson? : Json → Option Scalar
  | .bool b => some (.bool b)
  | .int n =>
    if Binary64.minInt64 ≤ n ∧ n ≤ Binary64.maxInt64 then some (.int (Int64.ofInt n))
    else some (.float (.ofInt n))
  | .real x => some (.float x)
  | .str s => some (.text s)
  | _ => none

/-- A double that is not finite has no JSON form. -/
def toJson : Scalar → Json
  | .bool b => .bool b
  | .int n => .int n.toInt
  | .float x => if x.isFinite then .real x else .null
  | .text s => .str s

end Scalar

end RulePlan
