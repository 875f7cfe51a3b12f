/-
  RulePlan.Proofs.Number.Written — integers as texts.

  An integer is written without blanks, commas and letters, and its text is read as the
  double that the integer itself becomes (`Scalar.textNumber?_toString`). Option codes
  are integers of at most fifteen digits.
-/

import RulePlan.Proofs.Number.Binary64
import RulePlan.Proofs.Number.Numeral
import RulePlan.Proofs.Text.Lower
import RulePlan.Proofs.Text.Strip
import RulePlan.Scalar

namespace RulePlan

/-- A whole number of at most fifteen digits. -/
def IsCode (n : Int) : Prop := n.natAbs < 10 ^ 15

instance (n : Int) : Decidable (IsCode n) := inferInstanceAs (Decidable (_ < _))

theorem IsCode.lt_two_pow {n : Int} (h : IsCode n) : n.natAbs < 2 ^ 53 := Nat.lt_trans h (by decide)

theorem IsCode.lt_overflow {n : Int} (h : IsCode n) : n.natAbs < Binary64.overflow :=
  Nat.lt_trans h (by decide +kernel)

/-- The minus sign of a whole number, if it has one, and its digits. -/
theorem toList_toString (n : Int) :
    (toString n).toList = (if n < 0 then ['-'] else []) ++ Nat.toDigits 10 n.natAbs := by
  rw [Int.toString_eq_repr]
  cases n with
  | ofNat n =>
    show n.repr.toList = _
    rw [Nat.repr_eq_ofList_toDigits, String.toList_ofList, if_neg (by simp)]
    rfl
  | negSucc n =>
    show ("-" ++ (n + 1).repr).toList = _
    rw [String.toList_append, Nat.repr_eq_ofList_toDigits, String.toList_ofList, String.toList_ofList,
      if_pos (Int.negSucc_lt_zero n)]
    rfl

/-! ## The characters of a code -/

theorem bounds_of_mem_toString {n : Int} {c : Char} (h : c ∈ (toString n).toList) :
    0x2D ≤ c.toNat ∧ c.toNat ≤ 0x39 := by
  rw [toList_toString] at h
  rcases List.mem_append.mp h with h | h
  · split at h
    · rw [List.mem_singleton.mp h]
      decide
    · cases h
  · have hdigit := Numeral.isDigit_of_mem_toDigits h
    rw [Numeral.isDigit, Bool.and_eq_true, decide_eq_true_eq, decide_eq_true_eq] at hdigit
    exact ⟨Nat.le_trans (by decide) (Char.le_def.mp hdigit.1), Char.le_def.mp hdigit.2⟩

theorem isCaseless_of_mem_toString {n : Int} {c : Char} (h : c ∈ (toString n).toList) : Text.IsCaseless c := by
  have hbounds := bounds_of_mem_toString h
  exact ⟨by omega, by omega⟩

theorem isBlank_of_mem_toString {n : Int} {c : Char} (h : c ∈ (toString n).toList) : Text.isBlank c = false := by
  have hbounds := bounds_of_mem_toString h
  exact Text.isBlank_of_ascii (by omega)

theorem comma_not_mem_toString (n : Int) : ',' ∉ (toString n).toList := fun h =>
  absurd (bounds_of_mem_toString h).1 (by decide)

/-! ## The number of a code -/

theorem splitSign_toString (n : Int) :
    Numeral.splitSign (toString n).toList = (decide (n < 0), Nat.toDigits 10 n.natAbs) := by
  rw [toList_toString]
  by_cases hn : n < 0
  · rw [if_pos hn, decide_eq_true hn]
    rfl
  · rw [if_neg hn, decide_eq_false hn]
    obtain ⟨c, r, hcr⟩ := List.exists_cons_of_ne_nil (Nat.toDigits_ne_nil (n := n.natAbs) (b := 10))
    rw [List.nil_append, hcr]
    exact Numeral.splitSign_of_isDigit (Numeral.isDigit_of_mem_toDigits (n := n.natAbs) (hcr ▸ List.mem_cons_self))

theorem toString_injective {m n : Int} (h : toString m = toString n) : m = n := by
  have hsplit : (decide (m < 0), Nat.toDigits 10 m.natAbs) = (decide (n < 0), Nat.toDigits 10 n.natAbs) := by
    rw [← splitSign_toString, ← splitSign_toString, h]
  obtain ⟨hsign, hdigits⟩ := Prod.mk.inj hsplit
  have habs : m.natAbs = n.natAbs :=
    Nat.ofDigitChars_ten_toDigits.symm.trans
      ((congrArg (Nat.ofDigitChars 10 · 0) hdigits).trans Nat.ofDigitChars_ten_toDigits)
  rw [decide_eq_decide] at hsign
  omega

theorem Scalar.textNumber?_toString {n : Int} (h : n.natAbs < Binary64.overflow) :
    Scalar.textNumber? (toString n) = some (Binary64.ofInt n) := by
  have hstrip := Text.strip_of_no_blank fun c hc => isBlank_of_mem_toString (n := n) hc
  have hall := fun c (hc : c ∈ Nat.toDigits 10 n.natAbs) => Numeral.isDigit_of_mem_toDigits hc
  have hdecimal := Numeral.decimal?_of_digits (splitSign_toString n) Nat.toDigits_ne_nil hall
  rw [Numeral.ofDigits_toDigits, Binary64.ofDecimal_whole] at hdecimal
  rw [textNumber?, hstrip, hdecimal]
  exact Option.filter_eq_some_iff.mpr ⟨rfl, (Binary64.isFinite_ofInt_iff n).mpr h⟩

end RulePlan
