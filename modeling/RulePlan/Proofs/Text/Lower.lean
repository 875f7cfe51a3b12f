/-
  RulePlan.Proofs.Text.Lower — characters without letter case.

  The characters before the capital A have no lower case, and no other character has one
  of them as its lower case (`lowerRuns_land_above`). So a text of such characters is the
  lower case of itself and of no other text (`lower_eq_iff`): lower-casing does not make
  digits or signs out of anything else. The character NUL is left out of this, for it
  stands for code points that are no characters.
-/

import RulePlan.Text.Case

namespace RulePlan.Text

/-- A character before the capital A. -/
def IsCaseless (c : Char) : Prop := 0 < c.toNat ∧ c.toNat < 0x41

theorem lowerRuns_land_above : ∀ run ∈ lowerRuns, 0x41 ≤ (run.first : Int) + run.offset := by decide +kernel

theorem lowerPoint_eq_or (n : Nat) (runs : List LowerRun) :
    lowerPoint n runs = n ∨ ∃ run ∈ runs, (run.first ≤ n ∧ n ≤ run.last ∧ (n - run.first) % run.step = 0) ∧
      lowerPoint n runs = ((n : Int) + run.offset).toNat := by
  induction runs with
  | nil => exact .inl rfl
  | cons run rest ih =>
    have hrest : lowerPoint n rest = n ∨
        ∃ r ∈ run :: rest, (r.first ≤ n ∧ n ≤ r.last ∧ (n - r.first) % r.step = 0) ∧
          lowerPoint n rest = ((n : Int) + r.offset).toNat :=
      ih.imp_right fun ⟨r, hr, h⟩ => ⟨r, List.mem_cons_of_mem _ hr, h⟩
    unfold lowerPoint
    split
    · exact .inl rfl
    · split
      · split
        · next hfirst hlast hstep => exact .inr ⟨run, List.mem_cons_self, ⟨by omega, hlast, hstep⟩, rfl⟩
        · exact hrest
      · exact hrest

/-- The capital A is the first character that has a lower case. -/
theorem lowerPoint_of_lt {n : Nat} (h : n < 0x41) : lowerPoint n lowerRuns = n := by
  unfold lowerRuns lowerPoint
  exact if_pos h

theorem toNat_ofNat (n : Nat) : (Char.ofNat n).toNat = n ∨ (Char.ofNat n).toNat = 0 := by
  by_cases hvalid : n.isValidChar
  · exact .inl (congrArg Char.toNat (dif_pos hvalid))
  · exact .inr (congrArg Char.toNat (dif_neg hvalid))

theorem lowerChar_of_isCaseless {c : Char} (h : IsCaseless c) : lowerChar c = [c] := by
  have hne : c ≠ '\u0130' := by
    rintro rfl
    exact absurd h.2 (by decide)
  rw [lowerChar, if_neg hne, lowerPoint_of_lt h.2, Char.ofNat_toNat]

theorem lowerChar_eq_self {c : Char} (h : ∀ d ∈ lowerChar c, IsCaseless d) : lowerChar c = [c] := by
  unfold lowerChar at h ⊢
  split at h
  · exact absurd (h 'i' List.mem_cons_self).2 (by decide)
  · next hne =>
    obtain ⟨hpos, hlt⟩ := h _ (List.mem_singleton_self _)
    rw [if_neg hne]
    rcases toNat_ofNat (lowerPoint c.toNat lowerRuns) with hn | hn
    · rcases lowerPoint_eq_or c.toNat lowerRuns with hself | ⟨run, hrun, ⟨hfirst, -⟩, hmoved⟩
      · rw [hself, Char.ofNat_toNat]
      · have hland := lowerRuns_land_above run hrun
        omega
    · omega

theorem lowerAfter_of_isCaseless {s : List Char} (h : ∀ c ∈ s, IsCaseless c) (before : List Char) :
    lowerAfter before s = s := by
  induction s generalizing before with
  | nil => rfl
  | cons c r ih =>
    have hc := h c List.mem_cons_self
    have hne : c ≠ capitalSigma := by
      rintro rfl
      exact absurd hc.2 (by decide)
    rw [lowerAfter, if_neg hne, lowerChar_of_isCaseless hc, ih fun d hd => h d (List.mem_cons_of_mem _ hd)]
    rfl

theorem lowerAfter_eq_of_isCaseless {s before : List Char} (h : ∀ c ∈ lowerAfter before s, IsCaseless c) :
    lowerAfter before s = s := by
  induction s generalizing before with
  | nil => rfl
  | cons c r ih =>
    rw [lowerAfter] at h ⊢
    rw [ih fun d hd => h d (List.mem_append_right _ hd)]
    have hfirst := fun d hd => h d (List.mem_append_left _ hd)
    split at hfirst
    · have hsigma := (hfirst _ (List.mem_singleton_self _)).2
      split at hsigma <;> exact absurd hsigma (by decide)
    · next hne => rw [if_neg hne, lowerChar_eq_self hfirst, List.singleton_append]

theorem lower_eq_iff {s t : String} (ht : ∀ c ∈ t.toList, IsCaseless c) : lower s = lower t ↔ s = t := by
  constructor
  · intro h
    unfold lower at h
    rw [lowerAfter_of_isCaseless ht, String.ofList_inj] at h
    exact String.toList_inj.mp ((lowerAfter_eq_of_isCaseless (h ▸ ht)).symm.trans h)
  · rintro rfl
    rfl

end RulePlan.Text
