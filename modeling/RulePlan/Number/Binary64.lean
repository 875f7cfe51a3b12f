/-
  RulePlan.Number.Binary64 — double-precision numbers, exactly.

  A number is a sign and 63 bits of magnitude: eleven of exponent above fifty-two of
  fraction. Every finite one is a whole number of units of 2⁻¹⁰⁷⁴ (`units`), and the
  magnitudes are ordered as the numbers they stand for, so `compare?` compares the
  signed magnitudes. `ofRatio` rounds a quotient of natural numbers to the nearest
  number, a half to the even neighbour; what rounds past the largest finite number is
  infinite. So do products and quotients, and a power of ten may also be applied in steps
  (`scale`), each of which rounds.
-/

namespace RulePlan

structure Binary64 where
  negative : Bool
  magnitude : Nat
  magnitude_lt : magnitude < Nat.pow 2 63
  deriving DecidableEq, Repr

namespace Binary64

/-- The magnitude of the infinities; those above it are no numbers. -/
def infinity : Nat := 2047 * Nat.pow 2 52

def infinite (negative : Bool) : Binary64 := ⟨negative, infinity, by decide⟩

def zero (negative : Bool) : Binary64 := ⟨negative, 0, by decide⟩

def nan : Binary64 := ⟨false, infinity + Nat.pow 2 51, by decide⟩

def isNaN (x : Binary64) : Bool := infinity < x.magnitude

def isFinite (x : Binary64) : Bool := x.magnitude < infinity

def isZero (x : Binary64) : Bool := x.magnitude = 0

/-- How many units of 2⁻¹⁰⁷⁴ a magnitude stands for. -/
def units (magnitude : Nat) : Nat :=
  let exponent := magnitude / Nat.pow 2 52
  let fraction := magnitude % Nat.pow 2 52
  if exponent = 0 then fraction else (Nat.pow 2 52 + fraction) * Nat.pow 2 (exponent - 1)

/-! ## Rounding -/

/-- The magnitude nearest to `num / den`, with no bound on the exponent. Fifty-three bits of the
    quotient are kept; a carry out of them moves into the exponent by itself. -/
def nearestMagnitude (num den : Nat) : Nat :=
  let scaled := num * Nat.pow 2 1074
  let shift := (scaled / den).log2 - 52
  let step := den * Nat.pow 2 shift
  let quotient := scaled / step
  let rest := scaled % step
  let up := decide (step < 2 * rest) || (decide (2 * rest = step) && decide (quotient % 2 = 1))
  shift * Nat.pow 2 52 + (if up then quotient + 1 else quotient)

def ofRatio (negative : Bool) (num den : Nat) : Binary64 :=
  ⟨negative, min (nearestMagnitude num den) infinity, Nat.lt_of_le_of_lt (Nat.min_le_right _ _) (by decide)⟩

def ofInt (n : Int) : Binary64 := ofRatio (decide (n < 0)) n.natAbs 1

/-- The decimal `digits · 10 ^ exponent`. Exponents far outside the range of the numbers are
    settled by the count of digits, so no power of ten grows past need. -/
def ofDecimal (negative : Bool) (digits : Nat) (exponent : Int) : Binary64 :=
  let size := ((Nat.toDigits 10 digits).length : Int) + exponent
  if digits = 0 then zero negative
  else if 310 < size then infinite negative
  else if size < -330 then zero negative
  else if 0 ≤ exponent then ofRatio negative (digits * Nat.pow 10 exponent.toNat) 1
  else ofRatio negative digits (Nat.pow 10 (-exponent).toNat)

/-! ## Products and quotients -/

/-- The product of two finite numbers. -/
def mul (x y : Binary64) : Binary64 :=
  ofRatio (x.negative ^^ y.negative) (units x.magnitude * units y.magnitude) (Nat.pow 2 2148)

/-- The quotient of two finite numbers; the second one is not zero. -/
def div (x y : Binary64) : Binary64 := ofRatio (x.negative ^^ y.negative) (units x.magnitude) (units y.magnitude)

def tenTo (n : Nat) : Binary64 := ofRatio false (Nat.pow 10 n) 1

/-- `x · 10 ^ exponent`, rounded at each step: the powers of ten are those up to 10³⁰⁸, and a product or
    quotient is taken of one after the other. -/
def scale (x : Binary64) (exponent : Int) : Binary64 :=
  if x.isZero then x
  else if 308 < exponent then infinite x.negative
  else if 0 ≤ exponent then x.mul (tenTo exponent.toNat)
  else if -308 ≤ exponent then x.div (tenTo (-exponent).toNat)
  else scale (x.div (tenTo 308)) (exponent + 308)
termination_by (-exponent).toNat

/-! ## Order -/

/-- The signed magnitude; both zeros have key 0. -/
def key (x : Binary64) : Int := if x.negative then -(x.magnitude : Int) else x.magnitude

/-- There is no order when one of the two is not a number. -/
def compare? (x y : Binary64) : Option Ordering :=
  if x.isNaN || y.isNaN then none else some (compare x.key y.key)

/-! ## Whole part -/

def minInt64 : Int := -(Nat.pow 2 63)

def maxInt64 : Int := Nat.pow 2 63 - 1

theorem toInt_range (n : Int64) : minInt64 ≤ n.toInt ∧ n.toInt ≤ maxInt64 := by
  have hmin : minInt64 = -9223372036854775808 := rfl
  have hmax : maxInt64 = 9223372036854775807 := rfl
  have hlo := n.le_toInt
  have hhi := n.toInt_lt
  omega

def clampInt64 (n : Int) : Int64 :=
  if n < minInt64 then Int64.minValue else if maxInt64 < n then Int64.maxValue else Int64.ofInt n

/-- The whole part, brought into the range of 64-bit integers; 0 when it is not a number. -/
def toInt64 (x : Binary64) : Int64 :=
  if x.isNaN then 0
  else
    let whole : Int := units x.magnitude / Nat.pow 2 1074
    clampInt64 (if x.negative then -whole else whole)

end Binary64

end RulePlan
