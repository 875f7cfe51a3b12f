/-
  RulePlan.Proofs.Keyed — finite maps and the entries they are made of.

  Where no key is given twice, the map of some entries holds these entries and no
  others (`ofList_perm`), whatever the order in which they came.
-/

import Mathlib.Data.List.Perm.Basic
import RulePlan.Keyed

namespace RulePlan.Keyed

variable {α : Type} {key : String} {value : α} {entries : List (String × α)}

theorem insert_perm (h : key ∉ entries.map (·.1)) : (insert key value entries).Perm ((key, value) :: entries) := by
  induction entries with
  | nil => exact List.Perm.refl _
  | cons e rest ih =>
    obtain ⟨k, v⟩ := e
    simp only [List.map_cons, List.mem_cons, not_or] at h
    obtain ⟨hk, hrest⟩ := h
    unfold insert
    rw [if_neg hk]
    split
    · exact List.Perm.refl _
    · exact ((ih hrest).cons (k, v)).trans (List.Perm.swap _ _ rest)

theorem foldl_insert_perm {done : List (String × α)} (h : ((done ++ entries).map (·.1)).Nodup) :
    (entries.foldl (fun done e => insert e.1 e.2 done) done).Perm (done ++ entries) := by
  induction entries generalizing done with
  | nil => simp
  | cons e rest ih =>
    have hfresh : e.1 ∉ done.map (·.1) := by
      rw [List.map_append, List.map_cons] at h
      exact fun hm => (List.nodup_append.mp h).2.2 _ hm _ List.mem_cons_self rfl
    have hp : (insert e.1 e.2 done ++ rest).Perm (done ++ e :: rest) :=
      ((insert_perm hfresh).append_right rest).trans (List.perm_middle.symm)
    exact (ih ((hp.map (·.1)).nodup_iff.mpr h)).trans hp

theorem ofList_perm (h : (entries.map (·.1)).Nodup) : (ofList entries).Perm entries := by
  exact foldl_insert_perm (by simpa using h)

theorem Ascending.nodup (h : Ascending entries) : (entries.map (·.1)).Nodup :=
  List.pairwise_map.mpr (h.imp fun hlt => String.ne_of_lt hlt)

/-- The map of some entries is these entries in key order. -/
theorem ofList_eq_of_perm {sorted : List (String × α)} (hp : sorted.Perm entries) (h : Ascending sorted) :
    ofList entries = sorted := by
  have hnd : (entries.map (·.1)).Nodup := (hp.map (·.1)).nodup_iff.mp h.nodup
  refine ((ofList_perm hnd).trans hp.symm).eq_of_pairwise (fun a b _ _ hab hba => ?_) (ascending_ofList entries) h
  exact absurd (String.lt_trans hab hba) (String.lt_irrefl _)

/-- Entries that are in key order already stay as they are. -/
theorem ofList_of_ascending (h : Ascending entries) : ofList entries = entries :=
  ofList_eq_of_perm (List.Perm.refl _) h

theorem find?_append (key : String) (xs ys : List (String × α)) :
    find? key (xs ++ ys) = (find? key xs).or (find? key ys) := by
  induction xs with
  | nil => rfl
  | cons x rest ih =>
    obtain ⟨k, v⟩ := x
    rw [List.cons_append, find?, find?]
    split
    · rfl
    · exact ih

theorem mem_of_find? (h : find? key entries = some value) : (key, value) ∈ entries := by
  induction entries with
  | nil => cases h
  | cons e rest ih =>
    obtain ⟨k, v⟩ := e
    unfold find? at h
    split at h
    · next hk =>
      cases h
      rw [hk]
      exact List.mem_cons_self
    · exact List.mem_cons_of_mem _ (ih h)

theorem contains_congr {others : List (String × α)} (h : find? key entries = find? key others) :
    contains key entries = contains key others := by
  rw [contains, h, contains]

theorem contains_iff : contains key entries ↔ key ∈ entries.map (·.1) := by
  induction entries with
  | nil => simp [contains, find?]
  | cons e rest ih =>
    obtain ⟨k, v⟩ := e
    unfold contains find?
    by_cases hk : k = key
    · simp [hk]
    · rw [if_neg hk, List.map_cons, List.mem_cons]
      constructor
      · exact fun h => .inr (ih.mp h)
      · intro h
        rcases h with h | h
        · exact absurd h.symm hk
        · exact ih.mpr h

theorem find?_eq_none (h : ∀ e ∈ entries, e.1 ≠ key) : find? key entries = none := by
  induction entries with
  | nil => rfl
  | cons e rest ih =>
    obtain ⟨k, v⟩ := e
    rw [find?, if_neg (h (k, v) List.mem_cons_self)]
    exact ih fun e he => h e (List.mem_cons_of_mem _ he)

/-! ## Insertion -/

theorem find?_insert (key sought : String) (value : α) (entries : List (String × α)) :
    find? sought (insert key value entries) = if key = sought then some value else find? sought entries := by
  induction entries with
  | nil => rfl
  | cons e rest ih =>
    obtain ⟨k, v⟩ := e
    unfold insert
    split
    · next hk =>
      subst hk
      simp only [find?]
      split <;> rfl
    · next hk =>
      split
      · rfl
      · rw [find?, find?, ih]
        split
        · next hs => rw [if_neg (hs ▸ hk)]
        · rfl

end RulePlan.Keyed
