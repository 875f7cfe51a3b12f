/-
  RulePlan.Proofs.Json.Carried — scalars and lists read back from their JSON form.

  JSON has no number for a double that is not finite: it is written as null, and null is
  no scalar. Any other scalar is read back as it was (`Scalar.ofJson?_toJson_eq`). What
  holds of the items of a list holds of the list: it is read back if each of its items
  is, and not at all otherwise (`Json.mapM_written`).
-/

import RulePlan.Scalar

namespace RulePlan

namespace Scalar

/-- JSON has a number for it. -/
def Finite : Scalar → Prop
  | .float x => x.isFinite
  | _ => True

instance : DecidablePred Finite
  | .float x => inferInstanceAs (Decidable (x.isFinite = true))
  | .bool _ | .int _ | .text _ => .isTrue trivial

theorem ofJson?_toJson {s : Scalar} (h : s.Finite) : ofJson? s.toJson = some s := by
  cases s with
  | bool b => rfl
  | int n =>
    simp only [toJson, ofJson?, if_pos (Binary64.toInt_range n), Int64.ofInt_toInt]
  | float x =>
    have hx : x.isFinite = true := h
    simp only [toJson, hx, if_true, ofJson?]
  | text s => rfl

theorem toJson_of_not_finite {s : Scalar} (h : ¬ s.Finite) : s.toJson = .null := by
  cases s with
  | float x =>
    have hx : ¬ x.isFinite = true := h
    rw [toJson, if_neg hx]
  | bool _ | int _ | text _ => exact absurd trivial h

theorem ofJson?_toJson_eq (s : Scalar) : ofJson? s.toJson = if s.Finite then some s else none := by
  split
  · next h => exact ofJson?_toJson h
  · next h =>
    rw [toJson_of_not_finite h]
    rfl

end Scalar

theorem Json.mapM_written {α : Type} {write : α → Json} {read : Json → Option α} {Carried : α → Prop}
    [DecidablePred Carried] (h : ∀ x, read (write x) = if Carried x then some x else none) (xs : List α) :
    (xs.map write).mapM read = if ∀ x ∈ xs, Carried x then some xs else none := by
  induction xs with
  | nil => simp
  | cons x rest ih =>
    rw [List.map_cons, List.mapM_cons, h, ih]
    by_cases hx : Carried x
    · by_cases hrest : ∀ y ∈ rest, Carried y
      · rw [if_pos hx, if_pos hrest, if_pos (List.forall_mem_cons.mpr ⟨hx, hrest⟩)]
        rfl
      · rw [if_pos hx, if_neg hrest, if_neg fun hall => hrest (List.forall_mem_cons.mp hall).2]
        rfl
    · rw [if_neg hx, if_neg fun hall => hx (List.forall_mem_cons.mp hall).1]
      rfl

end RulePlan
