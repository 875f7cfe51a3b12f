/-
  RulePlan.Proofs.Plan.LikePattern — what it is for a text to match a pattern.

  `Reads` says how a pattern is cut into tokens from the left, and `Matches` what texts a
  list of tokens stands for: a literal takes one character, the character itself, `one`
  takes any character, and `run` takes any number of them. The matcher tries no ways of
  dividing a text among the tokens. It keeps a row with one entry for each rest of the
  text; the entry of a rest says whether the tokens match that rest (`head_row_iff`), and
  a token in front turns the row into the next (`row_cons_text` finds the entry of a
  shorter rest in it).

  Proved (`isMatch_iff_matches`), for every text and every pattern, whatever runs and
  backslashes it has: the pattern is read in one way only, and the matcher says yes just
  when the tokens of that reading match the lower-cased characters of the text.
-/

import Mathlib.Data.List.Basic
import RulePlan.Plan.LikePattern

namespace RulePlan

theorem Text.lowerEach_cons (c : Char) (s : List Char) : lowerEach (c :: s) = lowerChar c ++ lowerEach s := rfl

namespace LikePattern

variable {ts us : List Token} {cs text : List Char} {c : Char}

/-! ## What tokens stand for -/

/-- The tokens match the whole of a text. -/
inductive Matches : List Token → List Char → Prop
  | nil : Matches [] []
  | run {ts : List Token} {rest : List Char} (taken : List Char) (h : Matches ts rest) :
      Matches (.run :: ts) (taken ++ rest)
  | one {ts : List Token} {rest : List Char} (c : Char) (h : Matches ts rest) : Matches (.one :: ts) (c :: rest)
  | literal {ts : List Token} {rest : List Char} (c : Char) (h : Matches ts rest) :
      Matches (.literal c :: ts) (c :: rest)

@[simp] theorem matches_nil_iff : Matches [] text ↔ text = [] := by
  constructor
  · intro h
    cases h
    rfl
  · rintro rfl
    exact .nil

theorem matches_run_iff : Matches (.run :: ts) text ↔ ∃ rest, rest <:+ text ∧ Matches ts rest := by
  constructor
  · intro h
    cases h with
    | run taken h => exact ⟨_, List.suffix_append _ _, h⟩
  · rintro ⟨rest, ⟨taken, rfl⟩, h⟩
    exact .run taken h

@[simp] theorem matches_one_nil : ¬ Matches (.one :: ts) [] := nofun

@[simp] theorem matches_one_cons : Matches (.one :: ts) (c :: text) ↔ Matches ts text := by
  constructor
  · intro h
    cases h
    assumption
  · exact .one c

@[simp] theorem matches_literal_nil {p : Char} : ¬ Matches (.literal p :: ts) [] := nofun

@[simp] theorem matches_literal_cons {p : Char} :
    Matches (.literal p :: ts) (c :: text) ↔ p = c ∧ Matches ts text := by
  constructor
  · intro h
    cases h with
    | literal _ h => exact ⟨rfl, h⟩
  · rintro ⟨rfl, h⟩
    exact .literal p h

/-- A run takes nothing, or the first character and then goes on. -/
@[simp] theorem matches_run_cons :
    Matches (.run :: ts) (c :: text) ↔ Matches ts (c :: text) ∨ Matches (.run :: ts) text := by
  simp only [matches_run_iff, List.suffix_cons_iff]
  constructor
  · rintro ⟨rest, rfl | hrest, h⟩
    · exact .inl h
    · exact .inr ⟨rest, hrest, h⟩
  · rintro (h | ⟨rest, hrest, h⟩)
    · exact ⟨_, .inl rfl, h⟩
    · exact ⟨rest, .inr hrest, h⟩

@[simp] theorem matches_run_nil : Matches (.run :: ts) [] ↔ Matches ts [] := by
  simp [matches_run_iff]

theorem matches_literals_append : Matches (cs.map .literal ++ ts) text ↔ ∃ rest, text = cs ++ rest ∧ Matches ts rest := by
  induction cs generalizing text with
  | nil => simp
  | cons c cs ih =>
    cases text with
    | nil => simp
    | cons d text =>
      simp only [List.map_cons, List.cons_append, matches_literal_cons, ih, List.cons.injEq]
      constructor
      · rintro ⟨rfl, rest, rfl, h⟩
        exact ⟨rest, ⟨rfl, rfl⟩, h⟩
      · rintro ⟨rest, ⟨rfl, rfl⟩, h⟩
        exact ⟨rfl, rest, rfl, h⟩

theorem matches_literals_cons {s : List Char} (h : Matches ts (Text.lowerEach s)) :
    Matches (literals c ++ ts) (Text.lowerEach (c :: s)) :=
  matches_literals_append.mpr ⟨_, Text.lowerEach_cons c s, h⟩

/-! ## Rows -/

theorem row_nil_text (ts : List Token) : ∃ here, row ts [] = [here] := by
  induction ts with
  | nil => exact ⟨true, rfl⟩
  | cons token ts ih =>
    obtain ⟨here, h⟩ := ih
    exact ⟨_, congrArg (prepend token []) h⟩

/-- The row of a text is an entry in front of the row of the text without its first character. -/
theorem row_cons_text (ts : List Token) (c : Char) (text : List Char) :
    ∃ here, row ts (c :: text) = here :: row ts text := by
  induction ts with
  | nil => exact ⟨false, rfl⟩
  | cons token ts ih =>
    obtain ⟨here, h⟩ := ih
    exact ⟨_, congrArg (prepend token (c :: text)) h⟩

/-- The first entry of a row tells whether the tokens match the whole text. -/
theorem head_row_iff : (row ts text).headD false ↔ Matches ts text := by
  induction ts generalizing text with
  | nil => cases text <;> simp [row, emptyRow]
  | cons token ts ih =>
    have hrow : row (token :: ts) text = prepend token text (row ts text) := rfl
    -- within a token from the shortest rest on, since a run looks at its own row
    induction text with
    | nil =>
      obtain ⟨here, h⟩ := row_nil_text ts
      have hhere : here = true ↔ Matches ts [] := by rw [← ih, h, List.headD_cons]
      cases token <;> simp [hrow, h, prepend, hhere]
    | cons c text ihText =>
      obtain ⟨here, h⟩ := row_cons_text ts c text
      have hhere : here = true ↔ Matches ts (c :: text) := by rw [← ih, h, List.headD_cons]
      have hrest : (row ts text).headD false = true ↔ Matches ts text := ih
      have hlater : (prepend token text (row ts text)).headD false = true ↔ Matches (token :: ts) text :=
        ihText rfl
      cases token with
      | run => simp only [hrow, h, prepend, List.headD_cons, Bool.or_eq_true, hhere, hlater, matches_run_cons]
      | one => simp only [hrow, h, prepend, List.headD_cons, hrest, matches_one_cons]
      | literal p =>
        simp only [hrow, h, prepend, List.headD_cons, Bool.and_eq_true, decide_eq_true_eq, hrest, matches_literal_cons]

theorem isMatch_eq_true_iff {pattern : List Char} :
    isMatch text pattern ↔ Matches (tokens pattern) (Text.lowerEach text) := head_row_iff

/-! ## Reading a pattern -/

/-- A pattern is read from the left. A backslash is read together with the character after it. -/
inductive Reads : List Char → List Token → Prop
  | nil : Reads [] []
  | run {r : List Char} {ts : List Token} (h : Reads r ts) : Reads ('%' :: r) (.run :: ts)
  | one {r : List Char} {ts : List Token} (h : Reads r ts) : Reads ('_' :: r) (.one :: ts)
  | escaped {r : List Char} {ts : List Token} (c : Char) (h : Reads r ts) : Reads ('\\' :: c :: r) (literals c ++ ts)
  | lone : Reads ['\\'] (literals '\\')
  | plain {r : List Char} {ts : List Token} (c : Char) (hc : c ≠ '%' ∧ c ≠ '_' ∧ c ≠ '\\') (h : Reads r ts) :
      Reads (c :: r) (literals c ++ ts)

theorem tokens_plain {r : List Char} (hc : c ≠ '%' ∧ c ≠ '_' ∧ c ≠ '\\') :
    tokens (c :: r) = literals c ++ tokens r := by
  simp [tokens, hc]

theorem reads_tokens (pattern : List Char) : Reads pattern (tokens pattern) := by
  fun_induction tokens pattern with
  | case1 => exact .nil
  | case2 r ih => exact .run ih
  | case3 r ih => exact .one ih
  | case4 c r ih => exact .escaped c ih
  | case5 c r hrun hone hescaped ih =>
    by_cases hc : c = '\\'
    · subst hc
      cases r with
      | nil => exact .lone
      | cons d r => exact absurd rfl (hescaped d r rfl)
    · exact .plain c ⟨hrun, hone, hc⟩ ih

theorem Reads.eq_tokens {pattern : List Char} (h : Reads pattern ts) : ts = tokens pattern := by
  induction h with
  | nil | lone => rfl
  | run _ ih | one _ ih | escaped _ _ ih => rw [tokens, ← ih]
  | plain c hc _ ih => rw [tokens_plain hc, ← ih]

/-- A pattern has one reading, and a text matches it just when the tokens of the reading match the
    lower-cased characters of the text. -/
theorem isMatch_iff_matches (text pattern : List Char) :
    ∃ ts, (∀ us, Reads pattern us ↔ us = ts) ∧ (isMatch text pattern ↔ Matches ts (Text.lowerEach text)) := by
  refine ⟨tokens pattern, fun us => ⟨Reads.eq_tokens, ?_⟩, isMatch_eq_true_iff⟩
  rintro rfl
  exact reads_tokens pattern

/-- The dotted capital I is lower-cased to two characters, and a backslash at the end is one. -/
example : isMatch ['\u0130', '\\'] ['I', '_', '\\'] = true := by decide

end LikePattern

end RulePlan
