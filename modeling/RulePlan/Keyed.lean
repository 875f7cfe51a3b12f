/-
  RulePlan.Keyed — finite maps as lists in key order.

  Texts are ordered by code point. `insert` puts an entry at its place and replaces an
  entry of the same key; a list built by insertions is `Ascending`, so each key stands
  in it once (`ascending_insert`, `ascending_ofList`).
-/

namespace RulePlan.Keyed

variable {α : Type}

def insert (key : String) (value : α) : List (String × α) → List (String × α)
  | [] => [(key, value)]
  | (k, v) :: rest =>
    if key = k then (key, value) :: rest
    else if key < k then (key, value) :: (k, v) :: rest
    else (k, v) :: insert key value rest

def find? (key : String) : List (String × α) → Option α
  | [] => none
  | (k, v) :: rest => if k = key then some v else find? key rest

def contains (key : String) (entries : List (String × α)) : Bool := (find? key entries).isSome

/-- Entries in any order, the last of each key kept. -/
def ofList (entries : List (String × α)) : List (String × α) :=
  entries.foldl (fun done e => insert e.1 e.2 done) []

def Ascending (entries : List (String × α)) : Prop := entries.Pairwise fun a b => a.1 < b.1

instance (entries : List (String × α)) : Decidable (Ascending entries) :=
  inferInstanceAs (Decidable (entries.Pairwise _))

theorem mem_insert {key : String} {value : α} {entries : List (String × α)} {e : String × α}
    (h : e ∈ insert key value entries) : e = (key, value) ∨ e ∈ entries := by
  induction entries with
  | nil => simp [insert] at h; exact Or.inl h
  | cons x rest ih =>
    obtain ⟨k, v⟩ := x
    unfold insert at h
    split at h
    · rcases List.mem_cons.mp h with h | h
      · exact Or.inl h
      · exact Or.inr (List.mem_cons_of_mem _ h)
    · split at h
      · rcases List.mem_cons.mp h with h | h
        · exact Or.inl h
        · exact Or.inr h
      · rcases List.mem_cons.mp h with h | h
        · exact Or.inr (h ▸ List.mem_cons_self)
        · rcases ih h with h | h
          · exact Or.inl h
          · exact Or.inr (List.mem_cons_of_mem _ h)

theorem ascending_insert (key : String) (value : α) {entries : List (String × α)} (h : Ascending entries) :
    Ascending (insert key value entries) := by
  induction entries with
  | nil => simp [insert, Ascending]
  | cons x rest ih =>
    obtain ⟨k, v⟩ := x
    have hx := List.pairwise_cons.mp h
    unfold insert
    split
    · next e => exact List.pairwise_cons.mpr ⟨fun b hb => e ▸ hx.1 b hb, hx.2⟩
    · next ne =>
      split
      · next lt =>
        refine List.pairwise_cons.mpr ⟨fun b hb => ?_, h⟩
        rcases List.mem_cons.mp hb with hb | hb
        · exact hb ▸ lt
        · exact String.lt_trans lt (hx.1 b hb)
      · next nlt =>
        refine List.pairwise_cons.mpr ⟨fun b hb => ?_, ih hx.2⟩
        rcases mem_insert hb with hb | hb
        · subst hb
          exact Std.lt_of_le_of_ne (Std.not_lt.mp nlt) (Ne.symm ne)
        · exact hx.1 b hb

theorem ascending_foldl {entries done : List (String × α)} (h : Ascending done) :
    Ascending (entries.foldl (fun done e => insert e.1 e.2 done) done) := by
  induction entries generalizing done with
  | nil => exact h
  | cons e rest ih => exact ih (ascending_insert e.1 e.2 h)

theorem ascending_ofList (entries : List (String × α)) : Ascending (ofList entries) :=
  ascending_foldl List.Pairwise.nil

end RulePlan.Keyed
