/-
  RulePlan.Proofs.Text.Replace — replacing in a text that is made of pieces.

  A text often comes as pieces, one for each character that it stands for. If a target
  is either a whole piece or cannot begin anywhere in it, whatever text comes after the
  piece (`avoids`), then replacing in the text is replacing in the pieces
  (`replaceAll_flatMap`). `replaced?` follows one piece through a list of replacements
  in this way, so a fact about whole texts comes down to a computation for each
  character (`foldl_replaceAll_flatMap`).
-/

import Mathlib.Data.List.Infix
import RulePlan.Proofs.Text.Split

namespace RulePlan.Text

variable {target replacement piece : List Char}

/-! ## One replacement -/

/-- No occurrence of the target begins in the piece, whatever comes after it. -/
def avoids (target : List Char) : List Char → Bool
  | [] => true
  | c :: r => !target.isPrefixOf (c :: r) && !(c :: r).isPrefixOf target && avoids target r

theorem splitAfter_cons_avoiding {c : Char} (h : avoids target (c :: piece)) (rest : List Char) :
    splitAfter target 0 (c :: (piece ++ rest)) = extendFirst c (splitAfter target 0 (piece ++ rest)) := by
  simp only [avoids, Bool.and_eq_true, Bool.not_eq_true', ← Bool.not_eq_true, List.isPrefixOf_iff_prefix] at h
  obtain ⟨⟨htarget, hpiece⟩, -⟩ := h
  have hno : ¬ target <+: c :: (piece ++ rest) := by
    intro hp
    rcases List.prefix_or_prefix_of_prefix hp (List.prefix_append (c :: piece) rest) with h | h
    · exact htarget h
    · exact hpiece h
  rw [splitAfter, if_neg (by rwa [List.isPrefixOf_iff_prefix])]

theorem intercalate_nil_cons {pieces : List (List Char)} (h : pieces ≠ []) :
    replacement.intercalate ([] :: pieces) = replacement ++ replacement.intercalate pieces := by
  cases pieces with
  | nil => exact absurd rfl h
  | cons piece rest => rw [List.intercalate_cons_cons, List.nil_append]

theorem intercalate_extendFirst (c : Char) (pieces : List (List Char)) :
    replacement.intercalate (extendFirst c pieces) = c :: replacement.intercalate pieces := by
  cases pieces with
  | nil => rfl
  | cons piece rest =>
    cases rest with
    | nil => simp [extendFirst]
    | cons next rest => simp [extendFirst, List.intercalate_cons_cons]

/-- Nothing is lost at the cuts. -/
theorem intercalate_splitWhere (c : Char) (s : List Char) : [c].intercalate (splitWhere (· = c) s) = s := by
  induction s with
  | nil => rfl
  | cons d r ih =>
    rw [splitWhere]
    split
    · next hd => rw [intercalate_nil_cons (splitWhere_ne_nil _ r), ih, of_decide_eq_true hd, List.singleton_append]
    · rw [intercalate_extendFirst, ih]

theorem replaceAll_eq (h : target ≠ []) (s : List Char) :
    replaceAll target replacement s = replacement.intercalate (splitAfter target 0 s) := by
  rw [replaceAll, splitOn_of_ne_nil h]

theorem replaceAll_nil (h : target ≠ []) : replaceAll target replacement [] = [] := by
  rw [replaceAll_eq h, splitAfter, List.intercalate_singleton]

theorem replaceAll_target_append (h : target ≠ []) (rest : List Char) :
    replaceAll target replacement (target ++ rest) = replacement ++ replaceAll target replacement rest := by
  rw [replaceAll_eq h, replaceAll_eq h, splitAfter_separator_append h, intercalate_nil_cons (splitAfter_ne_nil _ _ _)]

theorem replaceAll_avoiding_append (ht : target ≠ []) (h : avoids target piece) (rest : List Char) :
    replaceAll target replacement (piece ++ rest) = piece ++ replaceAll target replacement rest := by
  induction piece with
  | nil => rfl
  | cons c r ih =>
    have hr : avoids target r = true := by
      rw [avoids, Bool.and_eq_true] at h
      exact h.2
    rw [List.cons_append, replaceAll_eq ht, splitAfter_cons_avoiding h, intercalate_extendFirst, ← replaceAll_eq ht,
      ih hr, List.cons_append]

/-! ## Replacements one after the other -/

/-- What becomes of a piece that is the target or avoids it. -/
def replaceWhole? (target replacement piece : List Char) : Option (List Char) :=
  if piece = target then some replacement else if avoids target piece then some piece else none

/-- What becomes of a piece under replacements in turn, each of which takes it whole or leaves it. -/
def replaced? (pairs : List (String × String)) (piece : List Char) : Option (List Char) :=
  pairs.foldlM (fun s p => replaceWhole? p.1.toList p.2.toList s) piece

theorem replaceAll_flatMap {α : Type} {f g : α → List Char} {s : List α} (ht : target ≠ [])
    (h : ∀ a ∈ s, replaceWhole? target replacement (f a) = some (g a)) :
    replaceAll target replacement (s.flatMap f) = s.flatMap g := by
  induction s with
  | nil => exact replaceAll_nil ht
  | cons a rest ih =>
    have ha := h a List.mem_cons_self
    have hrest := ih fun b hb => h b (List.mem_cons_of_mem _ hb)
    rw [List.flatMap_cons, List.flatMap_cons]
    unfold replaceWhole? at ha
    split at ha
    · next he => rw [he, replaceAll_target_append ht, hrest, Option.some.inj ha]
    · split at ha
      · next hv => rw [replaceAll_avoiding_append ht hv, hrest, Option.some.inj ha]
      · cases ha

theorem foldl_replaceAll_flatMap {α : Type} {pairs : List (String × String)} {f g : α → List Char} {s : List α}
    (ht : ∀ p ∈ pairs, p.1.toList ≠ []) (h : ∀ a ∈ s, replaced? pairs (f a) = some (g a)) :
    pairs.foldl (fun t p => replaceAll p.1.toList p.2.toList t) (s.flatMap f) = s.flatMap g := by
  induction pairs generalizing f with
  | nil =>
    have hfg : ∀ a ∈ s, f a = g a := fun a ha => Option.some.inj (h a ha)
    exact List.flatMap_congr hfg
  | cons p rest ih =>
    have hsteps : ∀ a ∈ s, ∃ t, replaceWhole? p.1.toList p.2.toList (f a) = some t ∧ replaced? rest t = some (g a) :=
      fun a ha => Option.bind_eq_some_iff.mp (h a ha)
    -- `next a` is the piece of `a` after the first replacement
    choose! next hone hrest using hsteps
    rw [List.foldl_cons, replaceAll_flatMap (ht p List.mem_cons_self) hone]
    exact ih (fun q hq => ht q (List.mem_cons_of_mem _ hq)) hrest

/-- A character that begins no target stays as it is. -/
theorem replaced?_singleton {pairs : List (String × String)} {c : Char}
    (h : ∀ p ∈ pairs, p.1.toList ≠ [] ∧ p.1.toList.head? ≠ some c) : replaced? pairs [c] = some [c] := by
  induction pairs with
  | nil => rfl
  | cons p rest ih =>
    have hone : replaceWhole? p.1.toList p.2.toList [c] = some [c] := by
      obtain ⟨hne, hhead⟩ := h p List.mem_cons_self
      obtain ⟨d, r, hp⟩ := List.exists_cons_of_ne_nil hne
      have hd : d ≠ c := by simpa [hp] using hhead
      have hv : avoids p.1.toList [c] = true := by simp [hp, avoids, List.isPrefixOf, hd, Ne.symm hd]
      rw [replaceWhole?, if_neg (by simp [hp, Ne.symm hd]), if_pos hv]
    have hrest := ih fun q hq => h q (List.mem_cons_of_mem _ hq)
    rw [replaced?, List.foldlM_cons, hone]
    exact hrest

end RulePlan.Text
