/-
  RulePlan.Proofs.Plan.Wildcards — the wildcard for one character.

  Every token but a run takes one character, so a pattern without runs matches only texts
  that are as long, once lower-cased, as it has tokens (`Matches.length_eq`). A literal is
  as many tokens as its lower case has characters, a wildcard is one. That is the same for
  all characters but one, the dotted capital I, whose lower case is an i and a combining
  dot (`length_lowerEach`).

  `Blanked` says how a pattern is made from a text: some characters give way to wildcards,
  the others are written as literals. Proved (`matches_blanked_iff`): the text matches such
  a pattern just when no dotted capital I gave way to a wildcard, and n wildcards match the
  texts that have n characters if each dotted capital I is counted twice.
-/

import RulePlan.Proofs.Plan.LikePattern

namespace RulePlan.LikePattern

variable {ts : List Token} {text pattern word : List Char} {hidden : List Bool} {c : Char}

/-! ## Lengths -/

/-- The one character whose lower case is two. -/
def dottedI : Char := '\u0130'

theorem length_lowerChar (c : Char) : (Text.lowerChar c).length = if c = dottedI then 2 else 1 := by
  unfold Text.lowerChar dottedI
  split <;> rfl

theorem length_lowerEach (s : List Char) : (Text.lowerEach s).length = s.length + s.count dottedI := by
  induction s with
  | nil => rfl
  | cons c s ih =>
    rw [Text.lowerEach_cons, List.length_append, length_lowerChar, ih, List.length_cons, List.count_cons]
    by_cases hc : c = dottedI
    · simp only [hc, if_true, beq_self_eq_true]
      omega
    · simp only [hc, if_false, beq_iff_eq]
      omega

theorem Matches.length_eq (h : Matches ts text) (hrun : .run ∉ ts) : ts.length = text.length := by
  induction h with
  | nil => rfl
  | run taken h ih => exact absurd List.mem_cons_self hrun
  | one c h ih | literal c h ih =>
    rw [List.length_cons, List.length_cons, ih fun hr => hrun (List.mem_cons_of_mem _ hr)]

theorem tokens_replicate_one (n : Nat) : tokens (List.replicate n '_') = List.replicate n .one := by
  induction n with
  | zero => rfl
  | succ n ih => rw [List.replicate_succ, tokens, ih, List.replicate_succ]

theorem matches_replicate_one_iff {n : Nat} : Matches (List.replicate n .one) text ↔ text.length = n := by
  induction n generalizing text with
  | zero => simp
  | succ n ih => cases text <;> simp [List.replicate_succ, ih]

/-! ## Patterns made from texts -/

/-- The character as a literal of a pattern. A backslash may stand before any character and has to
    stand before one that would be read as something else. -/
inductive Literal (c : Char) : List Char → Prop
  | plain (hc : c ≠ '%' ∧ c ≠ '_' ∧ c ≠ '\\') : Literal c [c]
  | escaped : Literal c ['\\', c]

/-- The text with wildcards in place of its hidden characters. -/
inductive Blanked : List Char → List Bool → List Char → Prop
  | nil : Blanked [] [] []
  | wildcard {text pattern : List Char} {hidden : List Bool} (c : Char) (h : Blanked text hidden pattern) :
      Blanked (c :: text) (true :: hidden) ('_' :: pattern)
  | literal {text pattern word : List Char} {hidden : List Bool} {c : Char} (hw : Literal c word)
      (h : Blanked text hidden pattern) : Blanked (c :: text) (false :: hidden) (word ++ pattern)

theorem Literal.tokens_append (h : Literal c word) (pattern : List Char) :
    tokens (word ++ pattern) = literals c ++ tokens pattern := by
  cases h with
  | plain hc => exact tokens_plain hc
  | escaped => rfl

theorem run_not_mem_literals (c : Char) : .run ∉ literals c := by
  simp [literals]

namespace Blanked

theorem run_not_mem (h : Blanked text hidden pattern) : .run ∉ tokens pattern := by
  induction h with
  | nil => exact List.not_mem_nil
  | wildcard c h ih => simpa [tokens] using ih
  | @literal _ _ _ _ c hw h ih =>
    rw [hw.tokens_append, List.mem_append, not_or]
    exact ⟨run_not_mem_literals c, ih⟩

/-- For each hidden dotted capital I a token is missing. -/
theorem length_lowerEach_eq (h : Blanked text hidden pattern) :
    (Text.lowerEach text).length = (tokens pattern).length + (text.zip hidden).count (dottedI, true) := by
  induction h with
  | nil => rfl
  | wildcard c h ih =>
    rw [Text.lowerEach_cons, List.length_append, length_lowerChar, ih, tokens, List.length_cons, List.zip_cons_cons,
      List.count_cons]
    by_cases hc : c = dottedI
    · simp only [hc, if_true, beq_self_eq_true]
      omega
    · simp only [hc, if_false, beq_iff_eq, Prod.mk.injEq, false_and]
      omega
  | @literal _ _ _ _ c hw h ih =>
    have hliterals : (literals c).length = (Text.lowerChar c).length := List.length_map _
    rw [Text.lowerEach_cons, List.length_append, ih, hw.tokens_append, List.length_append, hliterals,
      List.zip_cons_cons, List.count_cons_of_ne (by simp)]
    omega

theorem matches_tokens (h : Blanked text hidden pattern) (hno : (dottedI, true) ∉ text.zip hidden) :
    Matches (tokens pattern) (Text.lowerEach text) := by
  induction h with
  | nil => exact .nil
  | wildcard c h ih =>
    rw [List.zip_cons_cons, List.mem_cons, not_or, Prod.mk.injEq, and_iff_left rfl] at hno
    have hone := length_lowerChar c
    rw [if_neg (Ne.symm hno.1)] at hone
    obtain ⟨d, hd⟩ := List.length_eq_one_iff.mp hone
    rw [Text.lowerEach_cons, hd, tokens]
    exact .one d (ih hno.2)
  | literal hw h ih =>
    rw [hw.tokens_append]
    exact matches_literals_cons (ih fun hmem => hno (List.mem_cons_of_mem _ hmem))

end Blanked

/-- A text matches the pattern that is made from it unless a dotted capital I is hidden, and `n`
    wildcards match the texts of `n` characters, a dotted capital I being two. -/
theorem matches_blanked_iff (h : Blanked text hidden pattern) :
    (isMatch text pattern ↔ (dottedI, true) ∉ text.zip hidden) ∧
      ∀ n, isMatch text (List.replicate n '_') ↔ text.length + text.count dottedI = n := by
  refine ⟨?_, fun n => ?_⟩
  · rw [isMatch_eq_true_iff]
    refine ⟨fun hm => ?_, h.matches_tokens⟩
    have hlength := hm.length_eq h.run_not_mem
    have hlower := h.length_lowerEach_eq
    exact List.count_eq_zero.mp (by omega)
  · rw [isMatch_eq_true_iff, tokens_replicate_one, matches_replicate_one_iff, length_lowerEach]

/-- The wildcard may stand for a percent sign or a letter, and literals count in either case. -/
theorem a_text_matches_its_pattern_with_blanks :
    let text := "10%_ OFF".toList
    let hidden := [false, true, true, false, false, false, true, true]
    Blanked text hidden "1__\\_ O__".toList ∧ (dottedI, true) ∉ text.zip hidden ∧
      isMatch text "1__\\_ O__".toList ∧ text.length = 8 ∧ isMatch text "________".toList := by
  intro text hidden
  have h : Blanked text hidden "1__\\_ O__".toList :=
    .literal (.plain (by decide)) <| .wildcard _ <| .wildcard _ <| .literal .escaped <|
      .literal (.plain (by decide)) <| .literal (.plain (by decide)) <| .wildcard _ <| .wildcard _ .nil
  have hno : (dottedI, true) ∉ text.zip hidden := by decide
  obtain ⟨hmatch, hwildcards⟩ := matches_blanked_iff h
  exact ⟨h, hno, hmatch.mpr hno, rfl, (hwildcards 8).mpr (by decide)⟩

/-- A text of one character that one wildcard does not match, but two do. -/
theorem a_dotted_capital_I_takes_two_wildcards :
    Blanked ['\u0130'] [true] ['_'] ∧ isMatch ['\u0130'] ['_'] = false ∧ isMatch ['\u0130'] ['_', '_'] = true :=
  ⟨.wildcard _ .nil, by decide, by decide⟩

end RulePlan.LikePattern
