/-
  RulePlan.Number.Shortest — the fewest decimal digits that read back.

  The reals that round to a finite number form an interval around it, with its ends
  when the last bit of the number is zero. `shortest` goes through the decimal grids
  10 ^ k from coarse to fine and takes the first on which one of the number's two
  neighbours lies in the interval; of two such neighbours the nearer, and for a tie
  the one its caller asks for.
-/

import RulePlan.Number.Binary64

namespace RulePlan

/-- Which neighbour is taken when both are equally near. -/
inductive Tie where
  | up
  | even
  deriving DecidableEq, Repr

/-- The decimal `digits · 10 ^ exponent`. -/
structure Decimal where
  digits : Nat
  exponent : Int
  deriving DecidableEq, Repr

namespace Decimal

/-- The decimal in units of 2⁻¹⁰⁷⁵, times ten to the `-exponent` when that is positive. -/
def halfUnits (d : Decimal) : Nat := d.digits * Nat.pow 10 d.exponent.toNat * Nat.pow 2 1075

/-- The reals that round to `magnitude` hold the decimal. -/
def readsBackTo (magnitude : Nat) (d : Decimal) : Bool :=
  let scale := Nat.pow 10 (-d.exponent).toNat
  let low := (Binary64.units (magnitude - 1) + Binary64.units magnitude) * scale
  let high := (Binary64.units magnitude + Binary64.units (magnitude + 1)) * scale
  if magnitude % 2 = 0 then low ≤ d.halfUnits && d.halfUnits ≤ high
  else low < d.halfUnits && d.halfUnits < high

/-- The grid point at or below the number, on the grid 10 ^ exponent. -/
def below (magnitude : Nat) (exponent : Int) : Decimal :=
  ⟨Binary64.units magnitude * Nat.pow 10 (-exponent).toNat / (Nat.pow 2 1074 * Nat.pow 10 exponent.toNat), exponent⟩

/-- The upper neighbour is the one to take, both being at hand. -/
def upperIsNearer (tie : Tie) (magnitude : Nat) (d : Decimal) : Bool :=
  let scale := Nat.pow 10 (-d.exponent).toNat
  let twice := 4 * Binary64.units magnitude * scale
  let ends := d.halfUnits + (Decimal.mk (d.digits + 1) d.exponent).halfUnits
  match compare twice ends with
  | .gt => true
  | .lt => false
  | .eq => match tie with
    | .up => true
    | .even => d.digits % 2 = 1

/-- The first of `count` grids, from 10 ^ exponent downwards, on which a neighbour reads back. -/
def firstHit (tie : Tie) (magnitude : Nat) : Nat → Int → Decimal
  | 0, exponent => below magnitude exponent
  | count + 1, exponent =>
    let d := below magnitude exponent
    let u : Decimal := ⟨d.digits + 1, exponent⟩
    match readsBackTo magnitude d, readsBackTo magnitude u with
    | true, true => if upperIsNearer tie magnitude d then u else d
    | true, false => d
    | false, true => u
    | false, false => firstHit tie magnitude count (exponent - 1)

/-- An exponent of ten above the number: three decimal digits stand for ten bits, nearly. -/
def startExponent (magnitude : Nat) : Int :=
  ((Binary64.units magnitude).log2 - 1074 : Int) * 30103 / 100000 + 2

/-- Seventeen digits always read back, and the start is at most three grids above the first of them. -/
def shortest (tie : Tie) (magnitude : Nat) : Decimal :=
  if magnitude = 0 then ⟨0, 0⟩ else firstHit tie magnitude 21 (startExponent magnitude)

end Decimal

end RulePlan
