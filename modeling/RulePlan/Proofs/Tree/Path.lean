/-
  RulePlan.Proofs.Tree.Path — paths, their keys and the entries they lead to.

  `Path.key` writes a path as the key that a form gives it; it is read back as the same
  path (`ofKey?_key`). What a reader of a flat object looks up, the entry of a path and
  the numbers of the entries one step below it, depends on which entries there are and
  not on their order (`entryAt?_eq_some`, `stepsBelow_eq_range'`).
-/

import Mathlib.Data.List.Sort
import RulePlan.Proofs.Number.Numeral
import RulePlan.Proofs.Text.Split
import RulePlan.Tree.Path

namespace RulePlan.Path

/-! ## Keys -/

/-- The numbers of a path in decimal, with the separator between them. -/
def key (p : Path) : String := String.ofList (separator.intercalate (p.map (Nat.toDigits 10)))

theorem mapM_uint32?_toDigits {p : Path} (h : ∀ n ∈ p, n < UInt32.size) :
    (p.map (Nat.toDigits 10)).mapM Numeral.uint32? = some p := by
  induction p with
  | nil => rfl
  | cons n rest ih =>
    rw [List.map_cons, List.mapM_cons, Numeral.uint32?_toDigits (h n List.mem_cons_self),
      ih fun m hm => h m (List.mem_cons_of_mem _ hm)]
    rfl

theorem ofKey?_key {p : Path} (hne : p ≠ []) (h : ∀ n ∈ p, n < UInt32.size) : ofKey? (key p) = some p := by
  have hsplit : Text.splitOn separator (separator.intercalate (p.map (Nat.toDigits 10))) = p.map (Nat.toDigits 10) := by
    refine Text.splitOn_intercalate (c := '-') (by simpa using hne) (by decide) fun piece hp => ?_
    obtain ⟨n, -, rfl⟩ := List.mem_map.mp hp
    exact Numeral.not_mem_toDigits (by decide)
  rw [ofKey?, key, String.toList_ofList, hsplit]
  exact mapM_uint32?_toDigits h

theorem key_root : key root = rootKey := by decide

/-! ## The entry of a path -/

variable {entries : List (Path × Json)} {p : Path}

theorem entryAt?_eq_some (hnd : (entries.map (·.1)).Nodup) {v : Json} (h : (p, v) ∈ entries) :
    entryAt? p entries = some v := by
  unfold entryAt?
  cases hf : entries.reverse.find? fun e => e.1 = p with
  | none =>
    have := List.find?_eq_none.mp hf (p, v) (List.mem_reverse.mpr h)
    simp at this
  | some e =>
    have hp : e.1 = p := by simpa using List.find?_some hf
    have he : e ∈ entries := List.mem_reverse.mp (List.mem_of_find?_eq_some hf)
    have heq : e = (p, v) := List.inj_on_of_nodup_map hnd he h hp
    rw [heq]
    rfl

/-- A later entry of the path goes before an earlier one. -/
theorem entryAt?_cons (e : Path × Json) (rest : List (Path × Json)) (p : Path) :
    entryAt? p (e :: rest) = (entryAt? p rest).or (if e.1 = p then some e.2 else none) := by
  rw [entryAt?, entryAt?, List.reverse_cons, List.find?_append, Option.map_or]
  by_cases h : e.1 = p
  · simp [h]
  · simp [h]

/-! ## The steps below a path -/

theorem mem_insertNumber {m n : Nat} {l : List Nat} : m ∈ insertNumber n l ↔ m = n ∨ m ∈ l := by
  induction l with
  | nil => simp [insertNumber]
  | cons k rest ih =>
    unfold insertNumber
    split
    · exact List.mem_cons
    · split
      · next e =>
        subst e
        simp
      · rw [List.mem_cons, ih, List.mem_cons]
        exact or_left_comm

theorem insertNumber_ascending {n : Nat} {l : List Nat} (h : l.Pairwise (· < ·)) :
    (insertNumber n l).Pairwise (· < ·) := by
  induction l with
  | nil => exact List.pairwise_singleton _ _
  | cons k rest ih =>
    obtain ⟨hk, hrest⟩ := List.pairwise_cons.mp h
    unfold insertNumber
    split
    · next hlt =>
      refine List.pairwise_cons.mpr ⟨fun m hm => ?_, h⟩
      rcases List.mem_cons.mp hm with rfl | hm
      · exact hlt
      · exact Nat.lt_trans hlt (hk m hm)
    · split
      · exact h
      · refine List.pairwise_cons.mpr ⟨fun m hm => ?_, ih hrest⟩
        rcases mem_insertNumber.mp hm with rfl | hm
        · omega
        · exact hk m hm

theorem stepBelow?_eq_some {n : Nat} {q : Path} : stepBelow? p q = some n ↔ q = p ++ [n] := by
  unfold stepBelow?
  constructor
  · intro h
    split at h
    · split at h
      · cases h
        assumption
      · cases h
    · cases h
  · intro h
    subst h
    simp

theorem mem_stepsBelow {n : Nat} : n ∈ stepsBelow p entries ↔ ∃ v, (p ++ [n], v) ∈ entries := by
  have hfold : ∀ l : List Nat, n ∈ l.foldr insertNumber [] ↔ n ∈ l := by
    intro l
    induction l with
    | nil => exact Iff.rfl
    | cons m rest ih => rw [List.foldr_cons, mem_insertNumber, ih, List.mem_cons]
  rw [stepsBelow, hfold, List.mem_filterMap]
  constructor
  · intro h
    obtain ⟨⟨q, v⟩, he, hs⟩ := h
    obtain rfl := stepBelow?_eq_some.mp hs
    exact ⟨v, he⟩
  · intro h
    obtain ⟨v, he⟩ := h
    exact ⟨_, he, stepBelow?_eq_some.mpr rfl⟩

theorem stepsBelow_ascending : (stepsBelow p entries).Pairwise (· < ·) := by
  unfold stepsBelow
  induction entries.filterMap fun e => stepBelow? p e.1 with
  | nil => exact List.Pairwise.nil
  | cons m rest ih => exact insertNumber_ascending ih

/-- The steps below a path count up from 1 when the entries there do. -/
theorem stepsBelow_eq_range' {k : Nat} (h : ∀ n, (∃ v, (p ++ [n], v) ∈ entries) ↔ 1 ≤ n ∧ n ≤ k) :
    stepsBelow p entries = List.range' 1 k := by
  refine stepsBelow_ascending.eq_of_mem_iff List.pairwise_lt_range' fun n => ?_
  rw [mem_stepsBelow, h, List.mem_range'_1]
  omega

/-- Below a path of the greatest length there are none. -/
theorem stepsBelow_eq_nil (hshort : ∀ e ∈ entries, e.1.length ≤ maxNesting) (hp : maxNesting ≤ p.length) :
    stepsBelow p entries = [] := by
  refine List.eq_nil_iff_forall_not_mem.mpr fun k hk => ?_
  obtain ⟨w, hw⟩ := mem_stepsBelow.mp hk
  have := hshort _ hw
  simp only [List.length_append, List.length_singleton] at this
  omega

/-! ## Building -/

theorem build_of_no_steps (h : stepsBelow p entries = []) (levels : Nat) :
    build entries levels p = pure (.obj (membersOf (entryAt? p entries))) := by
  unfold build
  rw [h]

/-- With no level left, what stands below a path is left out. -/
theorem value_build_zero : (build entries 0 p).value = .obj (membersOf (entryAt? p entries)) := by
  unfold build
  split
  · rfl
  · rfl

theorem value_build_succ (h : stepsBelow p entries ≠ []) (levels : Nat) :
    (build entries (levels + 1) p).value =
      .obj (Keyed.insert "conditions"
        (.arr ((stepsBelow p entries).map fun n => (build entries levels (p ++ [n])).value))
        (membersOf (entryAt? p entries))) := by
  rw [build]
  split
  · next hnil => exact absurd hnil h
  · simp

theorem mapM_congr_of_mem {α β : Type} {f g : α → Noted β} {xs : List α} (h : ∀ x ∈ xs, f x = g x) :
    xs.mapM f = xs.mapM g := by
  induction xs with
  | nil => rfl
  | cons x rest ih =>
    rw [List.mapM_cons, List.mapM_cons, h x List.mem_cons_self, ih fun y hy => h y (List.mem_cons_of_mem _ hy)]

theorem nestedRoot_nil (found : Noted Json) : nestedRoot [] found = found := rfl

theorem nestedRoot_cons (key : String) (v : Json) (rest : List (String × Json)) (found : Noted Json) :
    nestedRoot ((key, v) :: rest) found =
      nestedRoot rest
        (if ofKey? key = some root then
          match v with
          | .obj members => nested (.obj members)
          | _ => pure (.obj [])
        else found) := by
  cases v <;> rfl

theorem nested_of_not_isFlat {members : List (String × Json)} (h : isFlat members = false) :
    nested (.obj members) = pure (.obj members) := by
  rw [nested, if_neg (by rw [h]; exact Bool.false_ne_true)]

/-- What counts of the root path is the entry of that path. -/
theorem nestedRoot_eq (members : List (String × Json)) (found : Noted Json) :
    nestedRoot members found =
      match entryAt? root (Path.entries members) with
      | some v => nested (.obj (membersOf (some v)))
      | none => found := by
  induction members generalizing found with
  | nil => rfl
  | cons m rest ih =>
    obtain ⟨key, v⟩ := m
    rw [nestedRoot_cons, ih]
    have hentry : entryAt? root (Path.entries ((key, v) :: rest)) =
        (entryAt? root (Path.entries rest)).or (if ofKey? key = some root then some v else none) := by
      unfold Path.entries
      rw [List.filterMap_cons]
      cases hkey : ofKey? key with
      | none => simp
      | some q => simp [entryAt?_cons]
    rw [hentry]
    cases entryAt? root (Path.entries rest) with
    | some w => rfl
    | none =>
      by_cases hk : ofKey? key = some root
      · cases v with
        | obj ms => simp [hk, membersOf]
        | null | bool _ | int _ | real _ | str _ | arr _ => simp [hk, membersOf, @nested_of_not_isFlat [] rfl]
      · simp [hk]

end RulePlan.Path
