/-
  RulePlan.Proofs.Text.Split — joined pieces are found again.

  Pieces without some character of a separator come back when they are joined by the
  separator and the result is cut at it (`splitOn_intercalate`): no separator begins
  inside a piece, because that character is not reached there. The pieces between
  single separators contain none of them (`not_isSeparator_of_mem_piece`), and a text
  without separators is one piece. Texts that are joined by a single separator have
  the pieces of each of them (`splitWhere_intercalate`).
-/

import RulePlan.Text.Split

namespace RulePlan.Text

variable {c : Char} {separator : List Char}

theorem splitOn_of_ne_nil (h : separator ≠ []) (s : List Char) : splitOn separator s = splitAfter separator 0 s := by
  obtain ⟨d, r, rfl⟩ := List.exists_cons_of_ne_nil h
  rfl

theorem splitAfter_skip (skipped rest : List Char) :
    splitAfter separator skipped.length (skipped ++ rest) = splitAfter separator 0 rest := by
  induction skipped with
  | nil => rfl
  | cons d r ih => exact ih

theorem splitAfter_separator_append (h : separator ≠ []) (rest : List Char) :
    splitAfter separator 0 (separator ++ rest) = [] :: splitAfter separator 0 rest := by
  obtain ⟨d, r, rfl⟩ := List.exists_cons_of_ne_nil h
  have hfound : (d :: r).isPrefixOf (d :: (r ++ rest)) = true := by simp
  rw [List.cons_append, splitAfter, if_pos hfound]
  exact congrArg _ (splitAfter_skip r rest)

/-- Up to the first `c` of the separator there is no `c` in a text that begins earlier. -/
theorem not_isPrefixOf_piece_append {piece : List Char} (hc : c ∈ separator) (hne : piece ≠ []) (h : c ∉ piece)
    (rest : List Char) : separator.isPrefixOf (piece ++ (separator ++ rest)) = false := by
  refine Bool.eq_false_iff.mpr fun hfound => ?_
  obtain ⟨before, after, rfl, hbefore⟩ := List.eq_append_cons_of_mem hc
  obtain ⟨rest', hrest⟩ := List.isPrefixOf_iff_prefix.mp hfound
  have hlonger : before.length < (piece ++ before).length := by
    rw [List.length_append]
    have := List.length_pos_iff.mpr hne
    omega
  have hat : (piece ++ before)[before.length]? = some c := by
    have hin : (piece ++ before ++ (c :: after ++ rest))[before.length]? = (piece ++ before)[before.length]? :=
      List.getElem?_append_left hlonger
    rw [← hin, List.append_assoc, ← List.append_assoc before, ← hrest]
    simp
  rcases List.mem_append.mp (List.mem_of_getElem? hat) with hmem | hmem
  · exact h hmem
  · exact hbefore hmem

theorem splitAfter_piece {piece : List Char} (hc : c ∈ separator) (h : c ∉ piece) :
    splitAfter separator 0 piece = [piece] := by
  induction piece with
  | nil => rfl
  | cons d r ih =>
    have hnot : separator.isPrefixOf (d :: r) = false := by
      refine Bool.eq_false_iff.mpr fun hfound => h ?_
      exact (List.isPrefixOf_iff_prefix.mp hfound).subset hc
    rw [splitAfter, hnot, ih fun hm => h (List.mem_cons_of_mem _ hm)]
    rfl

theorem splitAfter_piece_append {piece : List Char} (hc : c ∈ separator) (h : c ∉ piece) (rest : List Char) :
    splitAfter separator 0 (piece ++ (separator ++ rest)) = piece :: splitAfter separator 0 rest := by
  induction piece with
  | nil => exact splitAfter_separator_append (List.ne_nil_of_mem hc) rest
  | cons d r ih =>
    have hnot := not_isPrefixOf_piece_append hc (List.cons_ne_nil d r) h rest
    rw [List.cons_append] at hnot
    rw [List.cons_append, splitAfter, hnot, ih fun hm => h (List.mem_cons_of_mem _ hm)]
    rfl

theorem splitOn_intercalate {pieces : List (List Char)} (hne : pieces ≠ []) (hc : c ∈ separator)
    (h : ∀ piece ∈ pieces, c ∉ piece) : splitOn separator (separator.intercalate pieces) = pieces := by
  rw [splitOn_of_ne_nil (List.ne_nil_of_mem hc)]
  induction pieces with
  | nil => exact absurd rfl hne
  | cons piece rest ih =>
    have hpiece := h piece List.mem_cons_self
    cases rest with
    | nil =>
      rw [List.intercalate_singleton]
      exact splitAfter_piece hc hpiece
    | cons next rest =>
      rw [List.intercalate_cons_cons, List.append_assoc, splitAfter_piece_append hc hpiece,
        ih (List.cons_ne_nil _ _) fun p hp => h p (List.mem_cons_of_mem _ hp)]

theorem splitAfter_ne_nil (separator : List Char) (skip : Nat) (s : List Char) : splitAfter separator skip s ≠ [] := by
  induction s generalizing skip with
  | nil => simp [splitAfter]
  | cons c r ih =>
    cases skip with
    | zero =>
      rw [splitAfter]
      split
      · exact List.cons_ne_nil _ _
      · cases splitAfter separator 0 r <;> exact List.cons_ne_nil _ _
    | succ n => exact ih n

theorem splitOn_ne_nil (separator s : List Char) : splitOn separator s ≠ [] := by
  cases separator with
  | nil => exact List.cons_ne_nil _ _
  | cons c separator => exact splitAfter_ne_nil _ 0 s

/-! ## Single separators -/

variable {isSeparator : Char → Bool} {s piece : List Char}

theorem mem_extendFirst {pieces : List (List Char)} (h : piece ∈ extendFirst c pieces) :
    piece ∈ pieces ∨ ∃ r, piece = c :: r ∧ (r = [] ∨ r ∈ pieces) := by
  cases pieces with
  | nil => exact .inr ⟨[], List.mem_singleton.mp h, .inl rfl⟩
  | cons first rest =>
    rcases List.mem_cons.mp h with rfl | h
    · exact .inr ⟨first, rfl, .inr List.mem_cons_self⟩
    · exact .inl (List.mem_cons_of_mem _ h)

theorem not_isSeparator_of_mem_piece (h : piece ∈ splitWhere isSeparator s) :
    ∀ d ∈ piece, isSeparator d = false := by
  induction s generalizing piece with
  | nil =>
    rw [splitWhere, List.mem_singleton] at h
    subst h
    simp
  | cons c r ih =>
    rw [splitWhere] at h
    split at h
    · rcases List.mem_cons.mp h with rfl | h
      · simp
      · exact ih h
    · next hc =>
      rcases mem_extendFirst h with h | ⟨rest, rfl, hrest⟩
      · exact ih h
      · intro d hd
        rcases List.mem_cons.mp hd with rfl | hd
        · simpa using hc
        · rcases hrest with rfl | hrest
          · cases hd
          · exact ih hrest d hd

theorem splitWhere_of_no_separator (h : ∀ d ∈ s, isSeparator d = false) : splitWhere isSeparator s = [s] := by
  induction s with
  | nil => rfl
  | cons c r ih =>
    have hc : isSeparator c = false := h c List.mem_cons_self
    rw [splitWhere, if_neg (by simp [hc]), ih fun d hd => h d (List.mem_cons_of_mem _ hd)]
    rfl

theorem splitWhere_append_separator (hc : isSeparator c) (s rest : List Char) :
    splitWhere isSeparator (s ++ c :: rest) = splitWhere isSeparator s ++ splitWhere isSeparator rest := by
  induction s with
  | nil =>
    show (if isSeparator c then _ else _) = _
    rw [if_pos hc]
    rfl
  | cons d r ih =>
    rw [List.cons_append, splitWhere, splitWhere, ih]
    split
    · rw [List.cons_append]
    · obtain ⟨first, pieces, hfirst⟩ := List.exists_cons_of_ne_nil (splitWhere_ne_nil isSeparator r)
      rw [hfirst]
      rfl

theorem splitWhere_intercalate (hc : isSeparator c) {texts : List (List Char)} (hne : texts ≠ []) :
    splitWhere isSeparator ([c].intercalate texts) = texts.flatMap (splitWhere isSeparator) := by
  induction texts with
  | nil => exact absurd rfl hne
  | cons text rest ih =>
    cases rest with
    | nil => rw [List.intercalate_singleton, List.flatMap_singleton]
    | cons next rest =>
      rw [List.intercalate_cons_cons, List.append_assoc, List.singleton_append, splitWhere_append_separator hc,
        ih (List.cons_ne_nil _ _)]
      rfl

theorem splitOn_singleton (c : Char) (s : List Char) : splitOn [c] s = splitWhere (· == c) s := by
  show splitAfter [c] 0 s = _
  induction s with
  | nil => rfl
  | cons d r ih =>
    have hprefix : [c].isPrefixOf (d :: r) = (d == c) := by simp [List.isPrefixOf, Bool.beq_comm]
    rw [splitAfter, splitWhere, hprefix, ← ih]
    rfl

end RulePlan.Text
