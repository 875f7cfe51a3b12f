/-
  RulePlan.Proofs.Text.Strip — what is left of a text without the blanks at its ends.

  A stripped text begins and ends with a character that is not blank, unless it is
  empty. So stripping it again changes nothing (`strip_strip`), and it is blank only
  when it is empty (`all_strip`). It is empty just when the whole text was blank
  (`strip_eq_nil_iff`). Blanks that are put at its ends are taken off with the others
  (`strip_blank_append`, `strip_append_blank`), and it does not matter whether letters
  are changed before or after (`strip_map`).
-/

import Mathlib.Data.List.DropRight
import RulePlan.Text.Blank

namespace RulePlan.Text

theorem strip_eq_rdropWhile (s : List Char) : strip s = (s.dropWhile isBlank).rdropWhile isBlank := rfl

/-- Taking blanks off the end does not uncover one at the beginning. -/
theorem dropWhile_strip (s : List Char) : (strip s).dropWhile isBlank = strip s := by
  rw [strip_eq_rdropWhile]
  generalize hl : s.dropWhile isBlank = l
  refine List.dropWhile_eq_self_iff.mpr fun h => ?_
  have hp : l.rdropWhile isBlank <+: l := List.rdropWhile_prefix _ l
  have hlen : 0 < l.length := Nat.lt_of_lt_of_le h hp.length_le
  have hself : l.dropWhile isBlank = l := by rw [← hl, List.dropWhile_idempotent]
  rw [hp.getElem h]
  exact List.dropWhile_eq_self_iff.mp hself hlen

@[simp] theorem strip_strip (s : List Char) : strip (strip s) = strip s := by
  rw [strip_eq_rdropWhile (strip s), dropWhile_strip, strip_eq_rdropWhile, List.rdropWhile_idempotent]

@[simp] theorem trim_trim (s : String) : trim (trim s) = trim s := by simp [trim]

theorem strip_of_no_blank {s : List Char} (h : ∀ c ∈ s, isBlank c = false) : strip s = s := by
  have hnot : ∀ (l : List Char) (hl : 0 < l.length), (∀ c ∈ l, isBlank c = false) → ¬ isBlank l[0] :=
    fun l hl h => by rw [h _ (List.getElem_mem hl)]; exact Bool.false_ne_true
  have hfirst : s.dropWhile isBlank = s := List.dropWhile_eq_self_iff.mpr fun hl => hnot s hl h
  have hlast : s.reverse.dropWhile isBlank = s.reverse :=
    List.dropWhile_eq_self_iff.mpr fun hl => hnot s.reverse hl fun c hc => h c (List.mem_reverse.mp hc)
  rw [strip, hfirst, hlast, List.reverse_reverse]

theorem strip_sublist (s : List Char) : (strip s).Sublist s := by
  rw [strip_eq_rdropWhile]
  exact (List.rdropWhile_prefix _ _).sublist.trans (List.dropWhile_sublist _)

/-- Only blanks are taken off. -/
theorem exists_eq_append_strip_append (s : List Char) :
    ∃ before after, before.all isBlank ∧ after.all isBlank ∧ s = before ++ strip s ++ after := by
  refine ⟨s.takeWhile isBlank, (s.dropWhile isBlank).rtakeWhile isBlank, ?_, ?_, ?_⟩
  · exact List.all_eq_true.mpr fun c hc => List.mem_takeWhile_imp hc
  · exact List.all_eq_true.mpr fun c hc => List.mem_rtakeWhile_imp hc
  · rw [strip_eq_rdropWhile, List.append_assoc, List.rdropWhile_append_rtakeWhile, List.takeWhile_append_dropWhile]

theorem isBlank_or_mem_strip {s : List Char} {c : Char} (h : c ∈ s) : isBlank c ∨ c ∈ strip s := by
  obtain ⟨before, after, hbefore, hafter, hs⟩ := exists_eq_append_strip_append s
  rw [hs] at h
  rcases List.mem_append.mp h with h | h
  · exact (List.mem_append.mp h).imp_left (List.all_eq_true.mp hbefore c)
  · exact .inl (List.all_eq_true.mp hafter c h)

theorem strip_eq_nil_iff {s : List Char} : strip s = [] ↔ s.all isBlank := by
  refine ⟨fun h => List.all_eq_true.mpr fun c hc => ?_, strip_of_all_blank⟩
  rcases isBlank_or_mem_strip hc with hblank | hmem
  · exact hblank
  · rw [h] at hmem
    cases hmem

theorem all_strip {s : List Char} (h : strip s ≠ []) : (strip s).all isBlank = false := by
  have hlast : ¬ isBlank ((strip s).getLast h) := List.rdropWhile_last_not _ _ h
  rw [List.all_eq_false]
  exact ⟨_, List.getLast_mem h, hlast⟩

theorem allBlank_strip {s : List Char} (h : strip s ≠ []) : allBlank (String.ofList (strip s)) = false := by
  simpa [allBlank] using all_strip h

/-! ## More blanks and other letters -/

variable {before after : List Char}

theorem strip_blank_append (h : before.all isBlank) (s : List Char) : strip (before ++ s) = strip s := by
  have hdrop : before.dropWhile isBlank = [] := List.dropWhile_eq_nil_iff.mpr (List.all_eq_true.mp h)
  rw [strip, List.dropWhile_append, hdrop, List.isEmpty_nil, if_pos rfl, strip]

theorem strip_append_blank (h : after.all isBlank) (s : List Char) : strip (s ++ after) = strip s := by
  have hdrop : after.dropWhile isBlank = [] := List.dropWhile_eq_nil_iff.mpr (List.all_eq_true.mp h)
  have hlast : after.reverse.dropWhile isBlank = [] :=
    List.dropWhile_eq_nil_iff.mpr fun c hc => List.all_eq_true.mp h c (List.mem_reverse.mp hc)
  rw [strip, List.dropWhile_append, strip]
  split
  · next hempty => rw [hdrop, List.isEmpty_iff.mp hempty]
  · rw [List.reverse_append, List.dropWhile_append, hlast, List.isEmpty_nil, if_pos rfl]

theorem strip_map {f : Char → Char} (h : ∀ c, isBlank (f c) = isBlank c) (s : List Char) :
    strip (s.map f) = (strip s).map f := by
  have hsame : isBlank ∘ f = isBlank := funext h
  rw [strip, List.dropWhile_map, hsame, ← List.map_reverse, List.dropWhile_map, hsame, ← List.map_reverse, strip]

/-- From the space on there is no blank among the ASCII characters. -/
theorem isBlank_of_ascii {c : Char} (h : 0x20 < c.toNat ∧ c.toNat < 0x80) : isBlank c = false := by
  simp [isBlank, blankRanges]
  omega

theorem isBlank_toLower (c : Char) : isBlank c.toLower = isBlank c := by
  by_cases hupper : c.val ≥ 'A'.val ∧ c.val ≤ 'Z'.val
  · have hlow : 65 ≤ c.val.toNat := UInt32.le_iff_toNat_le.mp hupper.1
    have hhigh : c.val.toNat ≤ 90 := UInt32.le_iff_toNat_le.mp hupper.2
    have hlower : c.toLower.toNat = c.val.toNat + 32 := by
      rw [show c.toLower = _ from dif_pos hupper]
      show (c.val + 32).toNat = c.val.toNat + 32
      rw [UInt32.toNat_add]
      exact Nat.mod_eq_of_lt (show c.val.toNat + 32 < 2 ^ 32 by omega)
    have hc : c.toNat = c.val.toNat := rfl
    rw [isBlank_of_ascii (by omega), isBlank_of_ascii (by omega)]
  · rw [show c.toLower = c from dif_neg hupper]

end RulePlan.Text
