/-
  RulePlan.Proofs.Number.Numeral — the decimal digits of a number are read back.

  Digits are read as the natural number that they were written for (`natural?_toDigits`,
  `uint32?_toDigits`), and behind a sign as a decimal without fraction and exponent
  (`decimal?_of_digits`). A decimal of any form is written in ASCII (`isAscii_of_decimal?`).
-/

import Mathlib.Data.List.TakeWhile
import RulePlan.Number.Numeral

namespace RulePlan.Numeral

theorem isDigit_of_mem_toDigits {n : Nat} {c : Char} (h : c ∈ Nat.toDigits 10 n) : isDigit c := by
  have hc := Nat.isDigit_of_mem_toDigits (by decide) (by decide) h
  obtain ⟨hlo, hhi⟩ := Char.isDigit_iff_toNat.mp hc
  unfold isDigit
  rw [Bool.and_eq_true, decide_eq_true_eq, decide_eq_true_eq, Char.le_def, Char.le_def]
  exact ⟨hlo, hhi⟩

theorem ofDigits_eq (digits : List Char) : ofDigits digits = Nat.ofDigitChars 10 digits 0 := by
  rw [Nat.ofDigitChars_eq_foldl]
  rfl

theorem natural?_of_digits {digits : List Char} (hne : digits ≠ []) (hall : ∀ c ∈ digits, isDigit c) :
    natural? digits = some (ofDigits digits) := by
  unfold natural?
  rw [if_pos (by simpa [hne] using hall)]

theorem ofDigits_toDigits (n : Nat) : ofDigits (Nat.toDigits 10 n) = n := by
  rw [ofDigits_eq, Nat.ofDigitChars_ten_toDigits]

theorem natural?_toDigits (n : Nat) : natural? (Nat.toDigits 10 n) = some n := by
  rw [natural?_of_digits Nat.toDigits_ne_nil fun c hc => isDigit_of_mem_toDigits hc, ofDigits_toDigits]

/-- A number is written without a sign. -/
theorem not_mem_toDigits {n : Nat} {c : Char} (h : isDigit c = false) : c ∉ Nat.toDigits 10 n := by
  intro hm
  rw [isDigit_of_mem_toDigits hm] at h
  cases h

theorem uint32?_toDigits {n : Nat} (h : n < UInt32.size) : uint32? (Nat.toDigits 10 n) = some n := by
  have hplus : ∀ r, Nat.toDigits 10 n ≠ '+' :: r := fun r e =>
    not_mem_toDigits (c := '+') (by decide) (e ▸ List.mem_cons_self)
  unfold uint32?
  split
  · next r e => exact absurd e (hplus r)
  · show (natural? (Nat.toDigits 10 n)).filter _ = some n
    rw [natural?_toDigits, Option.filter_some, if_pos (by simpa using h)]

/-! ## As a decimal -/

/-- No name of a number begins with a digit. -/
theorem ofList_toLower_ne {c : Char} {r : List Char} {name : String} (hc : isDigit c)
    (hname : ¬ name.toList.head?.any isDigit) : String.ofList ((c :: r).map Char.toLower) ≠ name := by
  intro h
  have hlower : c.toLower = c := by
    have hle : c ≤ '9' := by simpa [isDigit] using (Bool.and_eq_true_iff.mp hc).2
    have hnot : ¬ (c.val ≥ 'A'.val ∧ c.val ≤ 'Z'.val) := fun h =>
      absurd (UInt32.le_trans h.1 (Char.le_def.mp hle)) (by decide)
    exact dif_neg hnot
  have hhead : name.toList.head? = some c := by
    rw [← h, String.toList_ofList, List.map_cons, hlower]
    rfl
  exact hname (by rw [hhead]; exact hc)

theorem splitSign_of_isDigit {c : Char} {r : List Char} (hc : isDigit c) : splitSign (c :: r) = (false, c :: r) := by
  unfold splitSign
  split
  · next h =>
    rw [(List.cons.inj h).1] at hc
    exact absurd hc (by decide)
  · next h =>
    rw [(List.cons.inj h).1] at hc
    exact absurd hc (by decide)
  · rfl

theorem decimal?_of_digits {s digits : List Char} {negative : Bool} (h : splitSign s = (negative, digits))
    (hne : digits ≠ []) (hall : ∀ c ∈ digits, isDigit c) :
    decimal? s = some (Binary64.ofDecimal negative (ofDigits digits) 0) := by
  have hname : ∀ name ∈ ["inf", "infinity", "nan"], String.ofList (digits.map Char.toLower) ≠ name := by
    intro name hmem
    obtain ⟨c, r, hcr⟩ := List.exists_cons_of_ne_nil hne
    rw [hcr]
    refine ofList_toLower_ne (hall c (hcr ▸ List.mem_cons_self)) ?_
    revert name
    decide
  simp only [List.forall_mem_cons] at hname
  obtain ⟨hinf, hinfinity, hnan, -⟩ := hname
  have htake : digits.takeWhile isDigit = digits := List.takeWhile_eq_self_iff.mpr hall
  have hdrop : digits.dropWhile isDigit = [] := List.dropWhile_eq_nil_iff.mpr hall
  simp only [decimal?, h, hinf, hinfinity, hnan, htake, hdrop]
  simp [splitFraction, exponent?, ofParts, hne]

/-! ## The characters of a decimal -/

def IsAscii (c : Char) : Prop := c.toNat < 0x80

instance (c : Char) : Decidable (IsAscii c) := inferInstanceAs (Decidable (_ < _))

theorem isAscii_of_isDigit {c : Char} (h : isDigit c) : IsAscii c := by
  have hle : c ≤ '9' := by simpa [isDigit] using (Bool.and_eq_true_iff.mp h).2
  exact Nat.lt_of_le_of_lt (UInt32.le_iff_toNat_le.mp (Char.le_def.mp hle)) (by decide)

theorem isAscii_of_toLower {c : Char} (h : IsAscii c.toLower) : IsAscii c := by
  by_cases hupper : c.val ≥ 'A'.val ∧ c.val ≤ 'Z'.val
  · exact Nat.lt_of_le_of_lt (UInt32.le_iff_toNat_le.mp hupper.2) (by decide)
  · rwa [show c.toLower = c from dif_neg hupper] at h

theorem isAscii_of_splitSign {s body : List Char} {negative : Bool} (h : splitSign s = (negative, body))
    (hbody : ∀ c ∈ body, IsAscii c) : ∀ c ∈ s, IsAscii c := by
  unfold splitSign at h
  split at h
  · cases h
    exact List.forall_mem_cons.mpr ⟨by decide, hbody⟩
  · cases h
    exact List.forall_mem_cons.mpr ⟨by decide, hbody⟩
  · cases h
    exact hbody

theorem isDigit_of_natural? {s : List Char} {n : Nat} (h : natural? s = some n) : ∀ c ∈ s, isDigit c := by
  unfold natural? at h
  split at h
  · next hdigits => exact List.all_eq_true.mp (Bool.and_eq_true_iff.mp hdigits).2
  · cases h

theorem isAscii_of_integer? {s : List Char} {n : Int} (h : integer? s = some n) : ∀ c ∈ s, IsAscii c := by
  cases hsplit : splitSign s with
  | mk negative body =>
    simp only [integer?, hsplit] at h
    obtain ⟨m, hm, -⟩ := Option.map_eq_some_iff.mp h
    obtain ⟨k, hk, -⟩ := Option.bind_eq_some_iff.mp hm
    exact isAscii_of_splitSign hsplit fun c hc => isAscii_of_isDigit (isDigit_of_natural? hk c hc)

theorem isAscii_of_exponent? {s : List Char} {n : Int} (h : exponent? s = some n) : ∀ c ∈ s, IsAscii c := by
  cases s with
  | nil => nofun
  | cons c r =>
    rw [exponent?] at h
    split at h
    · next hc =>
      have hmark : c = 'e' ∨ c = 'E' := by simpa using hc
      have hc : IsAscii c := by rcases hmark with rfl | rfl <;> decide
      exact List.forall_mem_cons.mpr ⟨hc, isAscii_of_integer? h⟩
    · cases h

theorem isAscii_of_splitFraction {s fraction rest : List Char} (h : splitFraction s = (fraction, rest))
    (hrest : ∀ c ∈ rest, IsAscii c) : ∀ c ∈ s, IsAscii c := by
  unfold splitFraction at h
  split at h
  · next r =>
    cases h
    have hdigits : ∀ c ∈ r.takeWhile isDigit, IsAscii c := fun c hc => isAscii_of_isDigit (List.mem_takeWhile_imp hc)
    rw [← List.takeWhile_append_dropWhile (p := isDigit) (l := r)]
    exact List.forall_mem_cons.mpr ⟨by decide, List.forall_mem_append.mpr ⟨hdigits, hrest⟩⟩
  · cases h
    exact hrest

/-- Names are read in any letter case. -/
theorem isAscii_of_lower_eq {s : List Char} {name : String} (h : String.ofList (s.map Char.toLower) = name)
    (hname : name.toList.all (IsAscii ·)) : ∀ c ∈ s, IsAscii c := by
  intro c hc
  have hlower : c.toLower ∈ name.toList := by
    rw [← h, String.toList_ofList]
    exact List.mem_map_of_mem hc
  exact isAscii_of_toLower (of_decide_eq_true (List.all_eq_true.mp hname _ hlower))

/-- Decimals are written in ASCII. -/
theorem isAscii_of_decimal? {s : List Char} {x : Binary64} (h : decimal? s = some x) : ∀ c ∈ s, IsAscii c := by
  cases hsplit : splitSign s with
  | mk negative body =>
    refine isAscii_of_splitSign hsplit ?_
    simp only [decimal?, hsplit, Bool.or_eq_true, decide_eq_true_eq] at h
    split at h
    · next hname =>
      rcases hname with hname | hname
      · exact isAscii_of_lower_eq hname (by decide)
      · exact isAscii_of_lower_eq hname (by decide)
    · split at h
      · next hname => exact isAscii_of_lower_eq hname (by decide)
      · split at h
        · cases h
        · obtain ⟨exponent, hexponent, -⟩ := Option.map_eq_some_iff.mp h
          have hwhole : ∀ c ∈ body.takeWhile isDigit, IsAscii c :=
            fun c hc => isAscii_of_isDigit (List.mem_takeWhile_imp hc)
          have hrest := isAscii_of_splitFraction rfl (isAscii_of_exponent? hexponent)
          rw [← List.takeWhile_append_dropWhile (p := isDigit) (l := body)]
          exact List.forall_mem_append.mpr ⟨hwhole, hrest⟩

end RulePlan.Numeral
