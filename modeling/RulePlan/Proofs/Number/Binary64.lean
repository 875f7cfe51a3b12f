/-
  RulePlan.Proofs.Number.Binary64 — whole numbers as doubles.

  The magnitude of a whole number is its exponent followed by its leading bits, rounded
  (`nearestMagnitude_eq`), and a greater number has no smaller magnitude
  (`nearestMagnitude_mono`). Fifty-three bits hold a natural number below 2⁵³, so
  rounding leaves it as it is, and every greater number has a greater magnitude
  (`nearestMagnitude_lt`). Hence doubles order the whole numbers as they are if one of
  the two is of that size (`eq_of_key_eq`, `compare_key_of_ne`); otherwise different
  numbers may have become one, but never in the wrong order (`key_mono`).

  Past the largest finite number there is a first whole number that is rounded to
  infinity (`nearestMagnitude_lt_infinity_iff`). What is finite and beyond the 64-bit
  integers has a whole part beyond them too, so the nearest 64-bit integer is taken for
  it (`toInt64_ofInt`).
-/

import Mathlib.Algebra.Group.Nat.Defs
import RulePlan.Number.Binary64

namespace RulePlan.Binary64

theorem mul_pow_ne_zero {n : Nat} (hn : n ≠ 0) (e : Nat) : n * Nat.pow 2 e ≠ 0 :=
  Nat.mul_ne_zero hn (Nat.ne_of_gt (Nat.two_pow_pos e))

theorem log2_mul_pow {n : Nat} (hn : n ≠ 0) (e : Nat) : (n * Nat.pow 2 e).log2 = n.log2 + e := by
  induction e with
  | zero => simp
  | succ e ih =>
    show (n * (Nat.pow 2 e * 2)).log2 = _
    rw [← Nat.mul_assoc, Nat.mul_comm, Nat.log2_two_mul (mul_pow_ne_zero hn e), ih]
    omega

/-! ## Rounding -/

/-- How often a step goes into a number, to the nearest count, and to the even one from half-way. -/
def nearestCount (n step : Nat) : Nat :=
  if step < 2 * (n % step) ∨ 2 * (n % step) = step ∧ n / step % 2 = 1 then n / step + 1 else n / step

theorem nearestCount_bounds (n step : Nat) : n / step ≤ nearestCount n step ∧ nearestCount n step ≤ n / step + 1 := by
  unfold nearestCount
  split <;> omega

theorem nearestCount_mono {m n : Nat} (h : m ≤ n) (step : Nat) : nearestCount m step ≤ nearestCount n step := by
  have hdiv : m / step ≤ n / step := Nat.div_le_div_right h
  by_cases he : m / step = n / step
  · -- the step goes in equally often, and more is left over of the greater number
    have hrest : m % step ≤ n % step := by
      have hm := Nat.div_add_mod m step
      have hn := Nat.div_add_mod n step
      rw [he] at hm
      omega
    unfold nearestCount
    rw [he]
    split
    · exact Nat.le_of_eq (if_pos (by omega)).symm
    · split <;> omega
  · have hm := nearestCount_bounds m step
    have hn := nearestCount_bounds n step
    omega

/-- A whole number in the smallest unit. -/
def scaled (n : Nat) : Nat := n * Nat.pow 2 1074

theorem scaled_ne_zero {n : Nat} (hn : n ≠ 0) : scaled n ≠ 0 := by
  unfold scaled
  generalize 1074 = e
  exact mul_pow_ne_zero hn e

theorem log2_scaled {n : Nat} (hn : n ≠ 0) : (scaled n).log2 = n.log2 + 1074 := by
  unfold scaled
  generalize 1074 = e
  exact log2_mul_pow hn e

theorem scaled_mono {m n : Nat} (h : m ≤ n) : scaled m ≤ scaled n := by
  unfold scaled
  generalize Nat.pow 2 1074 = unitsOfOne
  exact Nat.mul_le_mul_right unitsOfOne h

/-- How many bits of a scaled number there are behind the fifty-three leading ones. -/
def droppedBits (n : Nat) : Nat := (scaled n).log2 - 52

theorem droppedBits_eq {n : Nat} (hn : n ≠ 0) : droppedBits n = n.log2 + 1022 := by
  rw [droppedBits, log2_scaled hn]
  omega

theorem droppedBits_mono {m n : Nat} (hm : m ≠ 0) (h : m ≤ n) : droppedBits m ≤ droppedBits n := by
  have hn : n ≠ 0 := by omega
  rw [droppedBits_eq hm, droppedBits_eq hn]
  exact Nat.add_le_add_right ((Nat.le_log2 hn).mpr (Nat.le_trans (Nat.log2_self_le hm) h)) _

theorem nearestMagnitude_eq (n : Nat) :
    nearestMagnitude n 1 = droppedBits n * 2 ^ 52 + nearestCount (scaled n) (2 ^ droppedBits n) := by
  unfold nearestMagnitude nearestCount droppedBits scaled
  generalize n * Nat.pow 2 1074 = scaled
  simp only [Nat.pow_eq, Nat.div_one, Nat.one_mul, Bool.or_eq_true, Bool.and_eq_true, decide_eq_true_eq]

theorem leadingBits_bounds {n : Nat} (hn : n ≠ 0) :
    2 ^ 52 ≤ scaled n / 2 ^ droppedBits n ∧ scaled n / 2 ^ droppedBits n < 2 ^ 53 := by
  have hlog : (scaled n).log2 = 52 + droppedBits n := by
    rw [log2_scaled hn, droppedBits_eq hn]
    omega
  have hpos : 0 < 2 ^ droppedBits n := Nat.two_pow_pos _
  rw [Nat.le_div_iff_mul_le hpos, Nat.div_lt_iff_lt_mul hpos, ← Nat.pow_add, ← Nat.pow_add, ← hlog,
    show 53 + droppedBits n = (scaled n).log2 + 1 by omega]
  exact ⟨Nat.log2_self_le (scaled_ne_zero hn), Nat.lt_log2_self⟩

/-- A carry out of the leading bits moves into the exponent. -/
theorem nearestMagnitude_bounds {n : Nat} (hn : n ≠ 0) :
    (droppedBits n + 1) * 2 ^ 52 ≤ nearestMagnitude n 1 ∧ nearestMagnitude n 1 ≤ (droppedBits n + 2) * 2 ^ 52 := by
  have hbits := leadingBits_bounds hn
  have hcount := nearestCount_bounds (scaled n) (2 ^ droppedBits n)
  rw [nearestMagnitude_eq]
  omega

theorem nearestMagnitude_zero : nearestMagnitude 0 1 = 0 := by decide +kernel

theorem nearestMagnitude_mono {m n : Nat} (h : m ≤ n) : nearestMagnitude m 1 ≤ nearestMagnitude n 1 := by
  by_cases hm : m = 0
  · rw [hm, nearestMagnitude_zero]
    exact Nat.zero_le _
  · have hdropped := droppedBits_mono hm h
    by_cases he : droppedBits m = droppedBits n
    · have := nearestCount_mono (scaled_mono h) (2 ^ droppedBits n)
      rw [nearestMagnitude_eq, nearestMagnitude_eq, he]
      omega
    · have hbm := nearestMagnitude_bounds hm
      have hbn := nearestMagnitude_bounds (n := n) (by omega)
      omega

/-! ## Numbers of fifty-three bits -/

/-- The number with as many zeros behind it as make up fifty-three bits. -/
def significand (n : Nat) : Nat := n * 2 ^ (52 - n.log2)

theorem significand_lt {n : Nat} (hn : n ≠ 0) (h : n < 2 ^ 53) : significand n < 2 ^ 53 := by
  have hlog : n.log2 < 53 := (Nat.log2_lt hn).mpr h
  have hhigh : 2 ^ 53 = 2 ^ (n.log2 + 1) * 2 ^ (52 - n.log2) := by rw [← Nat.pow_add]; congr 1; omega
  rw [hhigh]
  exact Nat.mul_lt_mul_of_pos_right Nat.lt_log2_self (Nat.two_pow_pos _)

theorem mul_pow_eq_significand {n : Nat} (hn : n ≠ 0) (h : n < 2 ^ 53) {e : Nat} (he : 52 ≤ e) :
    n * Nat.pow 2 e = significand n * 2 ^ (n.log2 + e - 52) := by
  have hlog : n.log2 < 53 := (Nat.log2_lt hn).mpr h
  have hexp : e = 52 - n.log2 + (n.log2 + e - 52) := by omega
  rw [significand, Nat.mul_assoc, ← Nat.pow_add, ← hexp]
  rfl

theorem scaled_eq_significand {n : Nat} (hn : n ≠ 0) (h : n < 2 ^ 53) :
    scaled n = significand n * 2 ^ droppedBits n := by
  rw [droppedBits_eq hn, show n.log2 + 1022 = n.log2 + 1074 - 52 by omega]
  unfold scaled
  generalize he : 1074 = e
  exact mul_pow_eq_significand hn h (by omega)

/-- A step that goes into a number without rest goes into it so often. -/
theorem nearestCount_mul (count : Nat) {step : Nat} (hstep : 0 < step) : nearestCount (count * step) step = count := by
  unfold nearestCount
  rw [Nat.mul_mod_left, Nat.mul_div_cancel _ hstep, if_neg (by omega)]

/-- A number of so many bits is not rounded. -/
theorem nearestMagnitude_of_lt {n : Nat} (hn : n ≠ 0) (h : n < 2 ^ 53) :
    nearestMagnitude n 1 = droppedBits n * 2 ^ 52 + significand n := by
  rw [nearestMagnitude_eq, scaled_eq_significand hn h, nearestCount_mul _ (Nat.two_pow_pos _)]

/-- Of two numbers one of which has so few bits, the greater has the greater magnitude. -/
theorem nearestMagnitude_lt {m n : Nat} (hm : m < 2 ^ 53) (h : m < n) :
    nearestMagnitude m 1 < nearestMagnitude n 1 := by
  have hn0 : n ≠ 0 := by omega
  have hbn := nearestMagnitude_bounds hn0
  by_cases hm0 : m = 0
  · rw [hm0, nearestMagnitude_zero]
    omega
  · have hdropped := droppedBits_mono hm0 (Nat.le_of_lt h)
    have hsm := significand_lt hm0 hm
    rw [nearestMagnitude_of_lt hm0 hm]
    by_cases he : droppedBits m = droppedBits n
    · -- as many bits, so both numbers fit
      have hlog : m.log2 = n.log2 := by
        rw [droppedBits_eq hm0, droppedBits_eq hn0] at he
        omega
      have hn : n < 2 ^ 53 := (Nat.log2_lt hn0).mp (hlog ▸ (Nat.log2_lt hm0).mpr hm)
      have hs : significand m < significand n := by
        rw [significand, significand, hlog]
        exact Nat.mul_lt_mul_of_pos_right h (Nat.two_pow_pos _)
      rw [nearestMagnitude_of_lt hn0 hn]
      omega
    · omega

/-! ## The largest finite number -/

/-- The first whole number that is rounded past the largest finite one. -/
def overflow : Nat := Nat.pow 2 1024 - Nat.pow 2 970

theorem nearestMagnitude_lt_infinity_iff (n : Nat) : nearestMagnitude n 1 < infinity ↔ n < overflow := by
  have hbelow : nearestMagnitude (overflow - 1) 1 < infinity := by decide +kernel
  have hat : infinity ≤ nearestMagnitude overflow 1 := by decide +kernel
  constructor
  · intro h
    refine Nat.lt_of_not_le fun hle => ?_
    have := nearestMagnitude_mono hle
    omega
  · intro h
    have := nearestMagnitude_mono (Nat.le_sub_one_of_lt h)
    omega

theorem eq_of_magnitude {x y : Binary64} (hsign : x.negative = y.negative) (h : x.magnitude = y.magnitude) : x = y := by
  cases x
  cases y
  simp_all

theorem ofRatio_of_overflow {n : Nat} (h : overflow ≤ n) (negative : Bool) :
    ofRatio negative n 1 = infinite negative := by
  have hmagnitude : infinity ≤ nearestMagnitude n 1 :=
    Nat.not_lt.mp fun hlt => Nat.not_lt.mpr h ((nearestMagnitude_lt_infinity_iff n).mp hlt)
  exact eq_of_magnitude rfl (Nat.min_eq_right hmagnitude)

theorem pow_le_of_lt_length {n k : Nat} (hk : 0 < k) (h : k < (Nat.toDigits 10 n).length) : 10 ^ k ≤ n :=
  Nat.not_lt.mp fun hlt => Nat.not_le.mpr h ((Nat.length_toDigits_le_iff (by decide) hk).mpr hlt)

/-- A decimal without fraction and exponent is rounded as the whole number that it is. -/
theorem ofDecimal_whole (negative : Bool) (n : Nat) : ofDecimal negative n 0 = ofRatio negative n 1 := by
  unfold ofDecimal
  simp only [Int.add_zero, Int.toNat_zero, Nat.pow_eq, Nat.pow_zero, Nat.mul_one, Int.le_refl, if_true]
  split
  · next hzero =>
    refine eq_of_magnitude rfl ?_
    show 0 = min (nearestMagnitude n 1) infinity
    rw [hzero, nearestMagnitude_zero, Nat.zero_min]
  · split
    · next hlong =>
      have hle : 10 ^ 310 ≤ n := pow_le_of_lt_length (by decide) (by omega)
      exact (ofRatio_of_overflow (Nat.le_trans (by decide +kernel) hle) negative).symm
    · rw [if_neg (by omega)]

/-! ## Integers -/

theorem magnitude_ofInt (n : Int) : (ofInt n).magnitude = min (nearestMagnitude n.natAbs 1) infinity := rfl

theorem isFinite_ofInt_iff (n : Int) : (ofInt n).isFinite ↔ n.natAbs < overflow := by
  have h := nearestMagnitude_lt_infinity_iff n.natAbs
  rw [← h, isFinite, decide_eq_true_eq, magnitude_ofInt]
  omega

theorem magnitude_ofInt_mono {m n : Int} (h : m.natAbs ≤ n.natAbs) : (ofInt m).magnitude ≤ (ofInt n).magnitude := by
  have := nearestMagnitude_mono h
  rw [magnitude_ofInt, magnitude_ofInt]
  omega

theorem magnitude_ofInt_lt {m n : Int} (hm : m.natAbs < 2 ^ 53) (h : m.natAbs < n.natAbs) :
    (ofInt m).magnitude < (ofInt n).magnitude := by
  have hlt := nearestMagnitude_lt hm h
  have hfinite : nearestMagnitude m.natAbs 1 < infinity :=
    (nearestMagnitude_lt_infinity_iff _).mpr (Nat.lt_trans hm (by decide +kernel))
  rw [magnitude_ofInt, magnitude_ofInt]
  omega

theorem natAbs_lt_overflow {n : Int} (h : minInt64 ≤ n ∧ n ≤ maxInt64) : n.natAbs < overflow := by
  have hmin : minInt64 = -2 ^ 63 := rfl
  have hmax : maxInt64 = 2 ^ 63 - 1 := rfl
  exact Nat.lt_of_le_of_lt (show n.natAbs ≤ 2 ^ 63 by omega) (by decide +kernel)

theorem isNaN_of_isFinite {x : Binary64} (h : x.isFinite) : x.isNaN = false := by
  simp only [isFinite, isNaN, decide_eq_true_eq, decide_eq_false_iff_not] at h ⊢
  omega

theorem isNaN_ofInt (n : Int) : (ofInt n).isNaN = false := decide_eq_false (Nat.not_lt.mpr (Nat.min_le_right _ _))

theorem key_ofInt (n : Int) :
    (ofInt n).key = if n < 0 then -((ofInt n).magnitude : Int) else (ofInt n).magnitude := by
  rw [key]
  show (if decide (n < 0) then _ else _) = _
  simp only [decide_eq_true_eq]

/-- Rounding does not exchange two integers. -/
theorem key_mono {m n : Int} (h : m ≤ n) : (ofInt m).key ≤ (ofInt n).key := by
  rw [key_ofInt, key_ofInt]
  split
  · split
    · have := magnitude_ofInt_mono (m := n) (n := m) (by omega)
      omega
    · omega
  · have := magnitude_ofInt_mono (m := m) (n := n) (by omega)
    rw [if_neg (by omega)]
    omega

theorem key_lt {m n : Int} (hsmall : m.natAbs < 2 ^ 53 ∨ n.natAbs < 2 ^ 53) (h : m < n) :
    (ofInt m).key < (ofInt n).key := by
  rw [key_ofInt, key_ofInt]
  split
  · split
    · have := magnitude_ofInt_lt (m := n) (n := m) (by omega) (by omega)
      omega
    · have := magnitude_ofInt_lt (m := 0) (n := m) (by decide) (by omega)
      omega
  · have := magnitude_ofInt_lt (m := m) (n := n) (by omega) (by omega)
    rw [if_neg (by omega)]
    omega

theorem compare?_of_not_isNaN {x y : Binary64} (hx : x.isNaN = false) (hy : y.isNaN = false) :
    x.compare? y = some (compare x.key y.key) := by
  rw [compare?, hx, hy, Bool.or_self, if_neg Bool.false_ne_true]

theorem compare?_ofInt (m n : Int) : (ofInt m).compare? (ofInt n) = some (compare (ofInt m).key (ofInt n).key) :=
  compare?_of_not_isNaN (isNaN_ofInt m) (isNaN_ofInt n)

/-- Integers that stay apart as doubles stand in the same order. -/
theorem compare_key_of_ne {m n : Int} (hapart : (ofInt m).key = (ofInt n).key → m = n) :
    compare (ofInt m).key (ofInt n).key = compare m n := by
  have hlt : (ofInt m).key < (ofInt n).key ↔ m < n := by
    have hmn := key_mono (m := m) (n := n)
    have hnm := key_mono (m := n) (n := m)
    omega
  have heq : (ofInt m).key = (ofInt n).key ↔ m = n := ⟨hapart, fun h => h ▸ rfl⟩
  show compareOfLessAndEq _ _ = compareOfLessAndEq m n
  simp only [compareOfLessAndEq, hlt, heq]

/-- Integers of fifty-three bits stay apart from all others. -/
theorem eq_of_key_eq {m n : Int} (hsmall : m.natAbs < 2 ^ 53 ∨ n.natAbs < 2 ^ 53)
    (h : (ofInt m).key = (ofInt n).key) : m = n := by
  rcases Int.lt_trichotomy m n with hlt | heq | hgt
  · have := key_lt hsmall hlt
    omega
  · exact heq
  · have := key_lt hsmall.symm hgt
    omega

/-! ## Whole parts -/

theorem units_lt (m : Nat) : units m < 2 ^ 52 * 2 ^ (m / Nat.pow 2 52) := by
  have hfraction : m % Nat.pow 2 52 < 2 ^ 52 := Nat.mod_lt _ (by decide)
  unfold units
  simp only
  split
  · next he => rwa [he, Nat.pow_zero, Nat.mul_one]
  · next he =>
    obtain ⟨e, he⟩ := Nat.exists_eq_add_one_of_ne_zero he
    have hdouble : 2 ^ 52 * 2 ^ (e + 1) = (2 ^ 52 + 2 ^ 52) * 2 ^ e := by
      rw [Nat.pow_succ 2 e]
      omega
    rw [he, Nat.add_sub_cancel, hdouble]
    exact Nat.mul_lt_mul_of_pos_right (Nat.add_lt_add_left hfraction _) (Nat.two_pow_pos e)

theorem le_units {m e : Nat} (h : e < m / Nat.pow 2 52) : 2 ^ 52 * 2 ^ e ≤ units m := by
  unfold units
  simp only
  rw [if_neg (by omega)]
  exact Nat.mul_le_mul (Nat.le_add_right _ _) (Nat.pow_le_pow_right (by decide) (by omega))

/-- A greater magnitude stands for a greater number. -/
theorem units_mono {m n : Nat} (h : m ≤ n) : units m ≤ units n := by
  have hexponent : m / Nat.pow 2 52 ≤ n / Nat.pow 2 52 := Nat.div_le_div_right h
  by_cases he : m / Nat.pow 2 52 = n / Nat.pow 2 52
  · have hfraction : m % Nat.pow 2 52 ≤ n % Nat.pow 2 52 := by
      have hm := Nat.div_add_mod m (Nat.pow 2 52)
      have hn := Nat.div_add_mod n (Nat.pow 2 52)
      rw [he] at hm
      omega
    unfold units
    simp only [he]
    split
    · exact hfraction
    · exact Nat.mul_le_mul_right _ (Nat.add_le_add_left hfraction _)
  · exact Nat.le_trans (Nat.le_of_lt (units_lt m)) (le_units (Nat.lt_of_le_of_ne hexponent he))

theorem clampInt64_of_le {n : Int} (h : n ≤ minInt64) : clampInt64 n = Int64.minValue := by
  unfold clampInt64
  split
  · rfl
  · obtain rfl : n = minInt64 := by omega
    decide

theorem clampInt64_of_ge {n : Int} (h : maxInt64 ≤ n) : clampInt64 n = Int64.maxValue := by
  have hbounds : minInt64 < maxInt64 := by decide
  unfold clampInt64
  rw [if_neg (by omega)]
  split
  · rfl
  · obtain rfl : n = maxInt64 := by omega
    decide

theorem clampInt64_of_mem {n : Int} (h : minInt64 ≤ n ∧ n ≤ maxInt64) : clampInt64 n = Int64.ofInt n := by
  unfold clampInt64
  rw [if_neg (by omega), if_neg (by omega)]

theorem toInt_clampInt64 (n : Int) : (clampInt64 n).toInt = max minInt64 (min n maxInt64) := by
  have hmin : minInt64 = -2 ^ 63 := rfl
  have hmax : maxInt64 = 2 ^ 63 - 1 := rfl
  by_cases hlow : n ≤ minInt64
  · rw [clampInt64_of_le hlow, Int64.toInt_minValue]
    omega
  · by_cases hhigh : maxInt64 ≤ n
    · rw [clampInt64_of_ge hhigh, Int64.toInt_maxValue]
      omega
    · rw [clampInt64_of_mem (by omega), Int64.toInt_ofInt_of_le (by omega) (by omega)]
      omega

/-- Rounding does not bring an integer back into the 64-bit ones. -/
theorem toInt64_ofInt {n : Int} (h : ¬ (minInt64 ≤ n ∧ n ≤ maxInt64)) : (ofInt n).toInt64 = clampInt64 n := by
  have hmin : minInt64 = -2 ^ 63 := rfl
  have hmax : maxInt64 = 2 ^ 63 - 1 := rfl
  have hmagnitude : (ofInt (2 ^ 63)).magnitude ≤ (ofInt n).magnitude := magnitude_ofInt_mono (by omega)
  have hwhole : 2 ^ 63 ≤ units (ofInt n).magnitude / Nat.pow 2 1074 :=
    Nat.le_trans (by decide +kernel) (Nat.div_le_div_right (units_mono hmagnitude))
  unfold toInt64
  rw [isNaN_ofInt, if_neg Bool.false_ne_true]
  simp only [← Int.natCast_ediv]
  generalize units (ofInt n).magnitude / Nat.pow 2 1074 = whole at hwhole
  show clampInt64 (if decide (n < 0) then _ else _) = _
  split
  · rw [clampInt64_of_le (n := n) (by simp_all; omega), clampInt64_of_le (by omega)]
  · rw [clampInt64_of_ge (n := n) (by simp_all; omega), clampInt64_of_ge (by omega)]

end RulePlan.Binary64
