/-
  RulePlan.Proofs.Text.Sigma — sigmas at the end of words.

  A text is lower-cased as a whole (`lower`) or each character on its own (`lowerEach`).
  The two differ only in the capital sigma, which as part of a text becomes ς at the end
  of a word and as a character becomes σ. A ς that is written small stays as it is in
  both. So what the whole text hides, whether a word was written with a capital sigma or
  with ς at its end, shows when its characters are lower-cased one by one.

  Words are the same before and after (`meetsCased_lowerAfter`): a character with a lower
  case is a letter, and so is its lower case, which is checked on the tables
  (`lowerRuns_pair_letters`). So a text has a word that ends in a sigma just when its lower
  case has one (`hasFinalSigma_lowerAfter`). Proved: texts with the same lower case as a given
  one have the same characters in lower case if none of its words ends in a sigma
  (`lowerEach_eq_of_lowerAfter_eq`), and otherwise there is one that has not
  (`exists_other_sigma`).
-/

import Mathlib.Data.List.Basic
import RulePlan.Proofs.Text.Lower

namespace RulePlan.Text

/-! ## Letters -/

/-- A letter ends the search for the end of a word. -/
structure IsLetter (c : Char) : Prop where
  cased : isCased c = true
  not_ignorable : isCaseIgnorable c = false

instance (c : Char) : Decidable (IsLetter c) :=
  decidable_of_iff (isCased c = true ∧ isCaseIgnorable c = false) ⟨fun h => ⟨h.1, h.2⟩, fun h => ⟨h.1, h.2⟩⟩

section

variable {first last n : Nat} {ranges : List (Nat × Nat)}

/-- All code points from `first` to `last` are in one of the ranges. -/
def inside (first last : Nat) : List (Nat × Nat) → Bool
  | [] => false
  | (a, b) :: rest => Nat.ble a first && (Nat.ble last b || (Nat.blt b first && inside first last rest))

/-- No code point from `first` to `last` is in a range. -/
def outside (first last : Nat) : List (Nat × Nat) → Bool
  | [] => true
  | (a, b) :: rest => Nat.blt last a || (Nat.blt b first && outside first last rest)

theorem inRanges_of_inside (h : inside first last ranges) (hn : first ≤ n ∧ n ≤ last) : inRanges n ranges = true := by
  induction ranges with
  | nil => cases h
  | cons range rest ih =>
    simp only [inside, Bool.and_eq_true, Bool.or_eq_true, Nat.ble_eq, Nat.blt_eq] at h
    obtain ⟨ha, hb | ⟨hb, hrest⟩⟩ := h
    · rw [inRanges, if_neg (by omega), if_pos (by omega)]
    · rw [inRanges, if_neg (by omega), if_neg (by omega), ih hrest]

theorem inRanges_of_outside (h : outside first last ranges) (hn : first ≤ n ∧ n ≤ last) :
    inRanges n ranges = false := by
  induction ranges with
  | nil => rfl
  | cons range rest ih =>
    simp only [outside, Bool.and_eq_true, Bool.or_eq_true, Nat.blt_eq] at h
    rcases h with ha | ⟨hb, hrest⟩
    · rw [inRanges, if_pos (by omega)]
    · rw [inRanges, if_neg (show ¬ n ≤ range.2 by omega), ih hrest, ite_self]

end

namespace LowerRun

/-- The characters of the run, found in one range or each on its own. -/
def isCased (run : LowerRun) : Bool :=
  inside run.first run.last casedRanges ||
    (List.range' run.first ((run.last - run.first) / run.step + 1) run.step).all fun n => inside n n casedRanges

/-- The characters of a run and their lower cases are letters. -/
def pairsLetters (run : LowerRun) : Bool :=
  let first := ((run.first : Int) + run.offset).toNat
  let last := ((run.last : Int) + run.offset).toNat
  run.isCased && outside run.first run.last caseIgnorableRanges && inside first last casedRanges &&
    outside first last caseIgnorableRanges && outside first last [(0xD800, 0xDFFF)] && Nat.blt last 0x110000

end LowerRun

theorem lowerRuns_pair_letters : lowerRuns.all LowerRun.pairsLetters = true := by decide +kernel

theorem isLetter_ofNat {n : Nat} (hvalid : n.isValidChar) (hcased : inRanges n casedRanges = true)
    (hignorable : inRanges n caseIgnorableRanges = false) : IsLetter (Char.ofNat n) := by
  have hn : (Char.ofNat n).toNat = n := congrArg Char.toNat (dif_pos hvalid)
  exact ⟨by rw [isCased, hn, hcased], by rw [isCaseIgnorable, hn, hignorable]⟩

theorem LowerRun.isCased_eq_true {run : LowerRun} (h : run.isCased) {n : Nat}
    (hn : run.first ≤ n ∧ n ≤ run.last ∧ (n - run.first) % run.step = 0) : inRanges n casedRanges = true := by
  obtain ⟨hfirst, hlast, hstep⟩ := hn
  rcases Bool.or_eq_true_iff.mp h with hinside | hpoints
  · exact inRanges_of_inside hinside ⟨hfirst, hlast⟩
  · refine inRanges_of_inside (List.all_eq_true.mp hpoints n ?_) ⟨Nat.le_refl n, Nat.le_refl n⟩
    have hdiv := Nat.div_add_mod (n - run.first) run.step
    refine List.mem_range'.mpr ⟨(n - run.first) / run.step, ?_, by omega⟩
    exact Nat.lt_succ_of_le (Nat.div_le_div_right (by omega))

/-- A character with another lower case is a letter, as is its lower case. -/
theorem isLetter_of_mem_lowerRuns {run : LowerRun} (hrun : run ∈ lowerRuns) {c : Char}
    (hc : run.first ≤ c.toNat ∧ c.toNat ≤ run.last ∧ (c.toNat - run.first) % run.step = 0) :
    IsLetter c ∧ IsLetter (Char.ofNat ((c.toNat : Int) + run.offset).toNat) := by
  have hpair := List.all_eq_true.mp lowerRuns_pair_letters run hrun
  simp only [LowerRun.pairsLetters, Bool.and_eq_true, Nat.blt_eq] at hpair
  obtain ⟨⟨⟨⟨⟨hcased, hstops⟩, hlower⟩, hlowerStops⟩, hsurrogates⟩, hlast⟩ := hpair
  have hbetween : ((run.first : Int) + run.offset).toNat ≤ ((c.toNat : Int) + run.offset).toNat ∧
      ((c.toNat : Int) + run.offset).toNat ≤ ((run.last : Int) + run.offset).toNat := by omega
  have hvalid : (((c.toNat : Int) + run.offset).toNat).isValidChar := by
    have hnone := inRanges_of_outside hsurrogates hbetween
    simp only [inRanges] at hnone
    unfold Nat.isValidChar
    split at hnone
    · omega
    · split at hnone
      · cases hnone
      · omega
  refine ⟨⟨LowerRun.isCased_eq_true hcased hc, inRanges_of_outside hstops ⟨hc.1, hc.2.1⟩⟩, ?_⟩
  exact isLetter_ofNat hvalid (inRanges_of_inside hlower hbetween) (inRanges_of_outside hlowerStops hbetween)

/-! ## Words -/

variable {before after marks p r s : List Char} {c d : Char}

theorem meetsCased_cons (c : Char) (r : List Char) :
    meetsCased (c :: r) = if isCaseIgnorable c then meetsCased r else isCased c := by
  unfold meetsCased
  rw [List.dropWhile_cons]
  by_cases h : isCaseIgnorable c <;> simp [h]

theorem meetsCased_cons_congr (h : meetsCased r = meetsCased s) (c : Char) :
    meetsCased (c :: r) = meetsCased (c :: s) := by
  rw [meetsCased_cons, meetsCased_cons, h]

theorem IsLetter.meetsCased_cons (h : IsLetter c) (r : List Char) : meetsCased (c :: r) = true := by
  rw [Text.meetsCased_cons, h.not_ignorable, if_neg Bool.false_ne_true, h.cased]

theorem meetsCased_append_of_ignorable (h : ∀ m ∈ marks, isCaseIgnorable m) (r : List Char) :
    meetsCased (marks ++ r) = meetsCased r := by
  unfold meetsCased
  rw [List.dropWhile_append_of_pos h]

/-- What stands for a character in lower case: itself, or a letter for a letter, with marks that the
    search for the end of a word passes over. -/
inductive LowerOf (c : Char) : List Char → Prop
  | self : LowerOf c [c]
  | letter {d : Char} {marks : List Char} (hc : IsLetter c) (hd : IsLetter d) (h : ∀ m ∈ marks, isCaseIgnorable m) :
      LowerOf c (d :: marks)

theorem LowerOf.meetsCased_append (h : LowerOf c p) (r : List Char) : meetsCased (p ++ r) = meetsCased (c :: r) := by
  cases h with
  | self => rfl
  | letter hc hd _ => rw [List.cons_append, hd.meetsCased_cons, hc.meetsCased_cons]

theorem LowerOf.meetsCased_reverse_append (h : LowerOf c p) (r : List Char) :
    meetsCased (p.reverse ++ r) = meetsCased (c :: r) := by
  cases h with
  | self => rfl
  | @letter d marks hc hd h =>
    have hmarks : ∀ m ∈ marks.reverse, isCaseIgnorable m := fun m hm => h m (List.mem_reverse.mp hm)
    rw [List.reverse_cons, List.append_assoc, meetsCased_append_of_ignorable hmarks, List.singleton_append,
      hd.meetsCased_cons, hc.meetsCased_cons]

theorem lowerOf_lowerChar (c : Char) : LowerOf c (lowerChar c) := by
  unfold lowerChar
  split
  · next hc => exact hc ▸ .letter (by decide) (by decide) (List.forall_mem_singleton.mpr (by decide))
  · rcases lowerPoint_eq_or c.toNat lowerRuns with hself | ⟨run, hrun, hc, hmoved⟩
    · rw [hself, Char.ofNat_toNat]
      exact .self
    · obtain ⟨hletter, hlower⟩ := isLetter_of_mem_lowerRuns hrun hc
      rw [hmoved]
      exact .letter hletter hlower nofun

/-- The lower case of a character between others, the ones before it from the nearest on. -/
def lowerBetween (before : List Char) (c : Char) (after : List Char) : List Char :=
  if c = capitalSigma then [if meetsCased before && !meetsCased after then finalSigma else smallSigma] else lowerChar c

theorem lowerAfter_cons (before : List Char) (c : Char) (r : List Char) :
    lowerAfter before (c :: r) = lowerBetween before c r ++ lowerAfter (c :: before) r := rfl

theorem lowerOf_lowerBetween (before : List Char) (c : Char) (after : List Char) :
    LowerOf c (lowerBetween before c after) := by
  unfold lowerBetween
  split
  · next hc =>
    rw [hc]
    split <;> exact .letter (by decide) (by decide) nofun
  · exact lowerOf_lowerChar c

theorem meetsCased_lowerAfter (before s : List Char) : meetsCased (lowerAfter before s) = meetsCased s := by
  induction s generalizing before with
  | nil => rfl
  | cons c r ih =>
    rw [lowerAfter_cons, (lowerOf_lowerBetween before c r).meetsCased_append]
    exact meetsCased_cons_congr (ih (c :: before)) c

/-- Of what stands before a text, only the end of a word counts. -/
theorem lowerAfter_congr {before before' : List Char} (h : meetsCased before = meetsCased before') (s : List Char) :
    lowerAfter before s = lowerAfter before' s := by
  induction s generalizing before before' with
  | nil => rfl
  | cons c r ih =>
    rw [lowerAfter_cons, lowerAfter_cons, ih (meetsCased_cons_congr h c), lowerBetween, lowerBetween, h]

/-! ## Sigmas at the end of words -/

/-- A sigma that is ς in lower case at the end of a word. -/
def isFinalForm (c : Char) : Bool := c = capitalSigma || c = finalSigma

theorem isFinalForm_iff : isFinalForm c ↔ c = capitalSigma ∨ c = finalSigma := by
  simp [isFinalForm]

theorem lowerChar_capitalSigma : lowerChar capitalSigma = [smallSigma] := by decide +kernel

theorem lowerChar_finalSigma : lowerChar finalSigma = [finalSigma] := by decide +kernel

theorem isLetter_of_isFinalForm (h : isFinalForm c) : IsLetter c := by
  rcases isFinalForm_iff.mp h with rfl | rfl <;> decide +kernel

theorem lowerRuns_miss_final_forms :
    ∀ run ∈ lowerRuns, ∀ n ∈ [capitalSigma.toNat, finalSigma.toNat],
      ¬ ((run.first : Int) + run.offset ≤ n ∧ (n : Int) ≤ run.last + run.offset) := by decide +kernel

/-- Only a capital sigma becomes ς, and nothing becomes a capital sigma. -/
theorem isFinalForm_lowerChar (h : isFinalForm c = false) : ∀ d ∈ lowerChar c, isFinalForm d = false := by
  unfold lowerChar
  split
  · exact List.forall_mem_cons.mpr ⟨by decide, List.forall_mem_singleton.mpr (by decide)⟩
  · intro d hd
    rw [List.mem_singleton.mp hd]
    rcases lowerPoint_eq_or c.toNat lowerRuns with hself | ⟨run, hrun, ⟨hfirst, hlast, -⟩, hmoved⟩
    · rwa [hself, Char.ofNat_toNat]
    · rw [hmoved]
      refine Bool.eq_false_iff.mpr fun hfinal => ?_
      have hmem : (Char.ofNat ((c.toNat : Int) + run.offset).toNat).toNat ∈
          [capitalSigma.toNat, finalSigma.toNat] := by
        rcases isFinalForm_iff.mp hfinal with h | h <;> simp [h]
      have hmiss := lowerRuns_miss_final_forms run hrun _ hmem
      have hpos : ∀ n ∈ [capitalSigma.toNat, finalSigma.toNat], 0 < n := by decide
      have := hpos _ hmem
      rcases toNat_ofNat ((c.toNat : Int) + run.offset).toNat with hn | hn <;> omega

/-- In a text that follows the characters of `before`, the nearest first, some word ends in a sigma,
    be it a capital one or a ς. -/
def hasFinalSigma (before : List Char) : List Char → Bool
  | [] => false
  | c :: r => isFinalForm c && meetsCased before && !meetsCased r || hasFinalSigma (c :: before) r

theorem hasFinalSigma_append (h : ∀ d ∈ p, isFinalForm d = false) (before s : List Char) :
    hasFinalSigma before (p ++ s) = hasFinalSigma (p.reverse ++ before) s := by
  induction p generalizing before with
  | nil => rfl
  | cons d p ih =>
    rw [List.cons_append, hasFinalSigma, h d List.mem_cons_self, ih fun e he => h e (List.mem_cons_of_mem _ he),
      List.reverse_cons, List.append_assoc]
    rfl

/-- A character is the end of a word in a sigma just when its lower case is. -/
theorem hasFinalSigma_lowerBetween_append {before before' : List Char} (h : meetsCased before' = meetsCased before)
    (c : Char) (hs : meetsCased s = meetsCased r) :
    hasFinalSigma before' (lowerBetween before c r ++ s) =
      (isFinalForm c && meetsCased before && !meetsCased r ||
        hasFinalSigma ((lowerBetween before c r).reverse ++ before') s) := by
  unfold lowerBetween
  split
  · next hc =>
    rw [List.singleton_append, hasFinalSigma, h, hs, hc, List.reverse_singleton, List.singleton_append]
    cases meetsCased before <;> cases meetsCased r <;> rfl
  · next hcapital =>
    cases hfinal : isFinalForm c with
    | true =>
      have hc : c = finalSigma := (isFinalForm_iff.mp hfinal).resolve_left hcapital
      rw [hc, lowerChar_finalSigma, List.singleton_append, hasFinalSigma, h, hs, ← hc, hfinal,
        List.reverse_singleton, List.singleton_append]
    | false =>
      rw [hasFinalSigma_append (isFinalForm_lowerChar hfinal), Bool.false_and, Bool.false_and, Bool.false_or]

/-- Lower-casing keeps the words that end in a sigma. -/
theorem hasFinalSigma_lowerAfter {before before' : List Char} (h : meetsCased before' = meetsCased before)
    (s : List Char) : hasFinalSigma before' (lowerAfter before s) = hasFinalSigma before s := by
  induction s generalizing before before' with
  | nil => rfl
  | cons c r ih =>
    have hbefore : meetsCased ((lowerBetween before c r).reverse ++ before') = meetsCased (c :: before) := by
      rw [(lowerOf_lowerBetween before c r).meetsCased_reverse_append]
      exact meetsCased_cons_congr h c
    rw [lowerAfter_cons, hasFinalSigma_lowerBetween_append h c (meetsCased_lowerAfter _ r), ih hbefore, hasFinalSigma]

/-! ## Lower-casing a text and its characters -/

theorem lowerAfter_eq_lowerEach (h : hasFinalSigma before s = false) : lowerAfter before s = lowerEach s := by
  induction s generalizing before with
  | nil => rfl
  | cons c r ih =>
    obtain ⟨hc, hr⟩ := Bool.or_eq_false_iff.mp h
    have hlower : lowerBetween before c r = lowerChar c := by
      unfold lowerBetween
      split
      · next hcapital =>
        have hend : (meetsCased before && !meetsCased r) = false := by simpa [hcapital, isFinalForm] using hc
        rw [hend, hcapital, lowerChar_capitalSigma, if_neg Bool.false_ne_true]
      · rfl
    rw [lowerAfter_cons, hlower, ih hr]
    rfl

/-- Where no word ends in a sigma, the lower case of the text is that of its characters, also for any
    other text with this lower case. -/
theorem lowerEach_eq_of_lowerAfter_eq (h : hasFinalSigma [] s = false) (hr : lowerAfter [] r = lowerAfter [] s) :
    lowerEach r = lowerEach s := by
  have hnone : hasFinalSigma [] r = false := by
    rw [← hasFinalSigma_lowerAfter rfl r, hr, hasFinalSigma_lowerAfter rfl s, h]
  rw [← lowerAfter_eq_lowerEach hnone, hr, lowerAfter_eq_lowerEach h]

theorem length_lowerAfter (before s : List Char) : (lowerAfter before s).length = (lowerEach s).length := by
  induction s generalizing before with
  | nil => rfl
  | cons c r ih =>
    have hc : (lowerBetween before c r).length = (lowerChar c).length := by
      unfold lowerBetween
      split
      · next hc => rw [hc, lowerChar_capitalSigma, List.length_singleton, List.length_singleton]
      · rfl
    rw [lowerAfter_cons, List.length_append, hc, ih]
    exact List.length_append.symm

/-- The other one of the two sigmas that are ς in lower case at the end of a word. -/
def otherSigma (c : Char) : Char := if c = capitalSigma then finalSigma else capitalSigma

theorem isFinalForm_otherSigma (c : Char) : isFinalForm (otherSigma c) := by
  unfold otherSigma
  split <;> rfl

theorem lowerChar_otherSigma_ne (h : isFinalForm c) : lowerChar (otherSigma c) ≠ lowerChar c := by
  rcases isFinalForm_iff.mp h with rfl | rfl <;> decide +kernel

theorem lowerBetween_of_isFinalForm (hc : isFinalForm c) (hbefore : meetsCased before = true)
    (hafter : meetsCased after = false) : lowerBetween before c after = [finalSigma] := by
  rw [lowerBetween, hbefore, hafter]
  split
  · rfl
  · next hcapital => rw [(isFinalForm_iff.mp hc).resolve_left hcapital, lowerChar_finalSigma]

/-- A word that ends in a sigma may end in the other one, and only the lower case of the whole text is
    the same. -/
theorem exists_other_sigma (h : hasFinalSigma before s) :
    ∃ r, lowerAfter before r = lowerAfter before s ∧ lowerEach r ≠ lowerEach s ∧ ∃ c ∈ r, isFinalForm c := by
  induction s generalizing before with
  | nil => cases h
  | cons c s ih =>
    rw [hasFinalSigma, Bool.or_eq_true, Bool.and_eq_true, Bool.and_eq_true, Bool.not_eq_true'] at h
    rcases h with ⟨⟨hc, hbefore⟩, hafter⟩ | hlater
    · have hother := isFinalForm_otherSigma c
      have hword : meetsCased (otherSigma c :: before) = meetsCased (c :: before) := by
        rw [(isLetter_of_isFinalForm hother).meetsCased_cons, (isLetter_of_isFinalForm hc).meetsCased_cons]
      refine ⟨otherSigma c :: s, ?_, ?_, otherSigma c, List.mem_cons_self, hother⟩
      · rw [lowerAfter_cons, lowerAfter_cons, lowerBetween_of_isFinalForm hother hbefore hafter,
          lowerBetween_of_isFinalForm hc hbefore hafter, lowerAfter_congr hword]
      · exact fun heq => lowerChar_otherSigma_ne hc (List.append_cancel_right heq)
    · obtain ⟨r, hr, hne, e, he, hfinal⟩ := ih hlater
      have hword : meetsCased r = meetsCased s := by
        rw [← meetsCased_lowerAfter (c :: before) r, hr, meetsCased_lowerAfter]
      refine ⟨c :: r, ?_, fun heq => hne (List.append_cancel_left heq), e, List.mem_cons_of_mem _ he, hfinal⟩
      rw [lowerAfter_cons, lowerAfter_cons, hr, lowerBetween, lowerBetween, hword]

end RulePlan.Text
