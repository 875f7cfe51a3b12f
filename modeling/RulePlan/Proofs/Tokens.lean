/-
  RulePlan.Proofs.Tokens — the tokens of a text.

  A token is a trimmed text that is not empty and holds no separator (`IsToken`). The
  tokens of a text are such texts, and a token has no other token than itself, so it
  does not matter how often a text is cut into tokens (`tokens_flatMap_tokens`).

  `Joins` says in how many ways tokens may be written as one text: with either separator
  after each, with blanks around them, and with pieces between them that are blank.
  Every text is written in this way from just one list of tokens (`joins_iff`).

  Proved (`tokens_undo_joins`): the tokens of a text are tokens, they are the list that
  the text is a way of writing, and joined by commas they come back.
-/

import RulePlan.FormValue
import RulePlan.Proofs.Text.Split
import RulePlan.Proofs.Text.Strip

namespace RulePlan

structure IsToken (t : String) : Prop where
  ne_empty : t ≠ ""
  trimmed : Text.trim t = t
  no_separator : ∀ c ∈ t.toList, isTokenSeparator c = false

theorem mem_tokens {s t : String} :
    t ∈ tokens s ↔ ∃ piece ∈ Text.splitWhere isTokenSeparator s.toList,
      Text.strip piece ≠ [] ∧ String.ofList (Text.strip piece) = t := by
  simp [tokens, and_assoc]

theorem isToken_of_mem_tokens {s t : String} (h : t ∈ tokens s) : IsToken t := by
  obtain ⟨piece, hp, hne, rfl⟩ := mem_tokens.mp h
  refine ⟨by simpa using hne, by simp [Text.trim], ?_⟩
  intro c hc
  rw [String.toList_ofList] at hc
  exact Text.not_isSeparator_of_mem_piece hp c ((Text.strip_sublist piece).subset hc)

theorem IsToken.strip_toList {t : String} (h : IsToken t) : Text.strip t.toList = t.toList := by
  simpa [Text.trim] using congrArg String.toList h.trimmed

theorem IsToken.tokens_eq {t : String} (h : IsToken t) : tokens t = [t] := by
  have hne : t.toList ≠ [] := by simpa using h.ne_empty
  rw [tokens, Text.splitWhere_of_no_separator h.no_separator]
  simp [h.strip_toList, hne]

theorem tokens_flatMap_tokens (s : String) : (tokens s).flatMap tokens = tokens s := by
  have hone : (tokens s).flatMap tokens = (tokens s).flatMap fun t => [t] :=
    List.flatMap_congr fun t ht => (isToken_of_mem_tokens ht).tokens_eq
  rw [hone, List.flatMap_singleton']

theorem isTokenSeparator_of_isBlank {c : Char} (h : Text.isBlank c) : isTokenSeparator c = false := by
  by_contra hs
  simp only [isTokenSeparator, Bool.not_eq_false, Bool.or_eq_true, decide_eq_true_eq] at hs
  rcases hs with rfl | rfl
  · exact absurd h (by decide)
  · exact absurd h (by decide)

theorem tokens_of_allBlank {s : String} (h : Text.allBlank s) : tokens s = [] := by
  have hall : ∀ c ∈ s.toList, Text.isBlank c := List.all_eq_true.mp h
  rw [tokens, Text.splitWhere_of_no_separator fun c hc => isTokenSeparator_of_isBlank (hall c hc)]
  simp [Text.strip_of_all_blank h]

/-! ## Texts that are made of tokens -/

/-- What stands between separators: a token with blanks around it, or only blanks. -/
inductive IsPiece : List String → List Char → Prop
  | token {t : String} {before after : List Char} (h : IsToken t) (hbefore : before.all Text.isBlank)
      (hafter : after.all Text.isBlank) : IsPiece [t] (before ++ t.toList ++ after)
  | blank {piece : List Char} (h : piece.all Text.isBlank) : IsPiece [] piece

/-- The text is pieces with a separator between each and the next, and the tokens are those in the
    pieces. -/
inductive Joins : List String → List Char → Prop
  | piece {ts : List String} {piece : List Char} (h : IsPiece ts piece) : Joins ts piece
  | cons {ts us : List String} {piece rest : List Char} {c : Char} (h : IsPiece ts piece) (hc : isTokenSeparator c)
      (hrest : Joins us rest) : Joins (ts ++ us) (piece ++ c :: rest)

variable {ts us : List String} {s rest : List Char} {c : Char}

theorem tokens_append_separator (hc : isTokenSeparator c) (s rest : List Char) :
    tokens (String.ofList (s ++ c :: rest)) = tokens (String.ofList s) ++ tokens (String.ofList rest) := by
  simp only [tokens, String.toList_ofList, Text.splitWhere_append_separator hc, List.map_append, List.filter_append]

theorem tokens_of_no_separator (h : ∀ c ∈ s, isTokenSeparator c = false) :
    tokens (String.ofList s) = if Text.strip s = [] then [] else [String.ofList (Text.strip s)] := by
  rw [tokens, String.toList_ofList, Text.splitWhere_of_no_separator h]
  by_cases hs : Text.strip s = [] <;> simp [hs]

namespace IsPiece

theorem no_separator (h : IsPiece ts s) : ∀ c ∈ s, isTokenSeparator c = false := by
  have hblank : ∀ {blanks : List Char}, blanks.all Text.isBlank → ∀ c ∈ blanks, isTokenSeparator c = false :=
    fun h c hc => isTokenSeparator_of_isBlank (List.all_eq_true.mp h c hc)
  cases h with
  | token h hbefore hafter =>
    rw [List.forall_mem_append, List.forall_mem_append]
    exact ⟨⟨hblank hbefore, h.no_separator⟩, hblank hafter⟩
  | blank h => exact hblank h

theorem tokens_eq (h : IsPiece ts s) : tokens (String.ofList s) = ts := by
  rw [tokens_of_no_separator h.no_separator]
  cases h with
  | @token t before after h hbefore hafter =>
    have hstrip : Text.strip (before ++ t.toList ++ after) = t.toList := by
      rw [Text.strip_append_blank hafter, Text.strip_blank_append hbefore, h.strip_toList]
    rw [hstrip, if_neg (by simpa using h.ne_empty), String.ofList_toList]
  | blank h => rw [if_pos (Text.strip_of_all_blank h)]

/-- Without a separator there is one piece. -/
theorem of_no_separator (h : ∀ c ∈ s, isTokenSeparator c = false) : IsPiece (tokens (String.ofList s)) s := by
  obtain ⟨before, after, hbefore, hafter, hs⟩ := Text.exists_eq_append_strip_append s
  have htokens := tokens_of_no_separator h
  by_cases hblank : Text.strip s = []
  · rw [htokens, if_pos hblank]
    exact .blank (Text.strip_eq_nil_iff.mp hblank)
  · rw [if_neg hblank] at htokens
    have htoken : IsToken (String.ofList (Text.strip s)) :=
      isToken_of_mem_tokens (htokens ▸ List.mem_singleton_self _)
    have hpiece := IsPiece.token htoken hbefore hafter
    rw [String.toList_ofList, ← hs] at hpiece
    rw [htokens]
    exact hpiece

end IsPiece

namespace Joins

theorem tokens_eq (h : Joins ts s) : tokens (String.ofList s) = ts := by
  induction h with
  | piece h => exact h.tokens_eq
  | cons h hc _ ih => rw [tokens_append_separator hc, h.tokens_eq, ih]

theorem append (hs : Joins ts s) (hc : isTokenSeparator c) (hrest : Joins us rest) :
    Joins (ts ++ us) (s ++ c :: rest) := by
  induction hs with
  | piece h => exact .cons h hc hrest
  | cons h hd _ ih =>
    rw [List.append_assoc, List.append_assoc, List.cons_append]
    exact .cons h hd ih

/-- Every text is a way of writing its tokens. -/
theorem of_tokens (s : List Char) : Joins (tokens (String.ofList s)) s := by
  -- on the length, for a text is cut at any one of its separators
  induction hn : s.length using Nat.strong_induction_on generalizing s with
  | _ n ih =>
    by_cases h : ∀ c ∈ s, isTokenSeparator c = false
    · exact .piece (.of_no_separator h)
    · push Not at h
      obtain ⟨c, hmem, hc⟩ := h
      obtain ⟨before, after, rfl⟩ := List.append_of_mem hmem
      rw [List.length_append, List.length_cons] at hn
      have hc : isTokenSeparator c := by simpa using hc
      rw [tokens_append_separator hc]
      exact (ih before.length (by omega) before rfl).append hc (ih after.length (by omega) after rfl)

theorem intercalate_comma (h : ∀ t ∈ ts, IsToken t) : Joins ts (",".intercalate ts).toList := by
  rw [String.toList_intercalate]
  induction ts with
  | nil => exact .piece (.blank rfl)
  | cons t rest ih =>
    have hpiece : IsPiece [t] ([] ++ t.toList ++ []) := .token (h t List.mem_cons_self) rfl rfl
    rw [List.nil_append, List.append_nil] at hpiece
    cases rest with
    | nil =>
      rw [List.map_singleton, List.intercalate_singleton]
      exact .piece hpiece
    | cons next rest =>
      have hrest := ih fun u hu => h u (List.mem_cons_of_mem _ hu)
      rw [List.map_cons, List.map_cons, List.intercalate_cons_cons, List.append_assoc]
      exact .cons hpiece (by decide) hrest

end Joins

theorem joins_iff {s : String} : tokens s = ts ↔ Joins ts s.toList := by
  constructor
  · rintro rfl
    have h := Joins.of_tokens s.toList
    rwa [String.ofList_toList] at h
  · intro h
    rw [← h.tokens_eq, String.ofList_toList]

/-- The tokens of a text are not empty, trimmed and without separators; a text has a list as its tokens
    just when it is some way of joining the list; and what is joined by commas comes back. -/
theorem tokens_undo_joins (s : String) :
    (∀ t ∈ tokens s, IsToken t) ∧ (∀ ts, tokens s = ts ↔ Joins ts s.toList) ∧
      tokens (",".intercalate (tokens s)) = tokens s := by
  have htokens : ∀ t ∈ tokens s, IsToken t := fun t => isToken_of_mem_tokens
  exact ⟨htokens, fun ts => joins_iff, joins_iff.mpr (.intercalate_comma htokens)⟩

/-- A token may have a blank inside, and a no-break space is a blank. -/
theorem a_token_with_a_blank_inside_is_found_between_odd_separators :
    let s := " red,; deep blue ;\u00A0green,"
    let colors := ["red", "deep blue", "green"]
    "deep blue" ∈ tokens s ∧ IsToken "deep blue" ∧ tokens s = colors ∧ Joins colors s.toList ∧
      tokens (",".intercalate colors) = colors := by
  intro s colors
  have hs : tokens s = colors := by decide
  have hmem : "deep blue" ∈ tokens s := hs ▸ by decide
  obtain ⟨htokens, hjoins, hback⟩ := tokens_undo_joins s
  rw [hs] at hback
  exact ⟨hmem, htokens _ hmem, hs, (hjoins colors).mp hs, hback⟩

end RulePlan
